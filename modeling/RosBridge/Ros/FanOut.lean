import RosBridge.Lib.Runs
import RosBridge.Ros.Adapter
/-!
# Fan-out of ROS samples

A started adapter has one native entity for each topic, type, QoS and direction, and a
sample of it reaches the listeners of every name that shares it, each once and with a tree
of its own, whatever the listeners do to the adapter meanwhile: `fan_out`.
-/

namespace RosBridge.Ros

open Lib Config RosJson Thread

/-! ## Shared entities -/

theorem units_inj {s t : String} (h : Tree.units s = Tree.units t) : s = t := String.toList_inj.1 (JsString.utf16_inj h)

theorem reliabilityName_inj (r r' : Reliability) : reliabilityName r = reliabilityName r' → r = r' := by
  cases r <;> cases r' <;> decide

theorem durabilityName_inj (d d' : Durability) : durabilityName d = durabilityName d' → d = d' := by
  cases d <;> cases d' <;> decide

/-- Entities with one key are made from the same. -/
theorem entityKey_inj {e e' : Entity} (h : entityKey e = entityKey e') : e = e' := by
  have items := Tree.array.inj (Tree.text_inj h)
  simp only [List.cons.injEq, Tree.string.injEq, Tree.number.injEq, Int.natCast_inj, and_true, true_and] at items
  obtain ⟨topic, type, depth, reliability, durability⟩ := items
  obtain ⟨rosType, rosTopic, ⟨r, d, n⟩⟩ := e
  obtain ⟨rosType', rosTopic', ⟨r', d', n'⟩⟩ := e'
  obtain rfl : rosTopic = rosTopic' := units_inj topic
  obtain rfl : rosType = rosType' := units_inj type
  obtain rfl : n = n' := depth
  obtain rfl : r = r' := reliabilityName_inj r r' (units_inj reliability)
  obtain rfl : d = d' := durabilityName_inj d d' (units_inj durability)
  rfl

/-- The names that share the subscription of an entity. -/
def sharing (registry : List RosRegistration) (entity : Entity) : List RosRegistration :=
  registry.filter fun entry => entry.binding.direction = .rosToWeb ∧ entry.entity = entity

section Start

variable {ν : Type} {backend : RosBackend}

/-- What `start` has made for some of the registrations. -/
structure Made (entries : List RosRegistration) (a : Adapter ν) : Prop where
  once : a.entities.Nodup
  exact : ∀ direction entity, (direction, entity) ∈ a.entities ↔ ∃ entry ∈ entries, entry.binding.direction = direction ∧ entry.entity = entity
  publishers : ∀ entity, entityKey entity ∈ a.publishers ↔ (.webToRos, entity) ∈ a.entities
  aliases : ∀ entity, (a.subscriptions.get? (entityKey entity)).getD [] = (sharing entries entity).map (·.binding.publicName)
  subscribed : ∀ entity, (a.subscriptions.get? (entityKey entity)).isSome = true ↔ (.rosToWeb, entity) ∈ a.entities

theorem sharing_append (entries : List RosRegistration) (entry : RosRegistration) (entity : Entity) :
    sharing (entries ++ [entry]) entity =
      sharing entries entity ++ if entry.binding.direction = .rosToWeb ∧ entry.entity = entity then [entry] else [] := by
  unfold sharing
  rw [List.filter_append]
  by_cases h : entry.binding.direction = .rosToWeb ∧ entry.entity = entity
  · rw [if_pos h, List.filter_cons_of_pos (by simpa using h), List.filter_nil]
  · rw [if_neg h, List.filter_cons_of_neg (by simpa using h), List.filter_nil]

/-- An entity that is there serves one more registration. -/
theorem exact_old {entries : List RosRegistration} {entities : List (Direction × Entity)} {entry : RosRegistration}
    (h : ∀ direction entity, (direction, entity) ∈ entities ↔ ∃ e ∈ entries, e.binding.direction = direction ∧ e.entity = entity)
    (here : (entry.binding.direction, entry.entity) ∈ entities) (direction : Direction) (entity : Entity) :
    (direction, entity) ∈ entities ↔ ∃ e ∈ entries ++ [entry], e.binding.direction = direction ∧ e.entity = entity := by
  rw [h]
  constructor
  · intro found
    obtain ⟨e, mem, same⟩ := found
    exact ⟨e, List.mem_append_left _ mem, same⟩
  · intro found
    obtain ⟨e, mem, rfl, rfl⟩ := found
    rcases List.mem_append.1 mem with mem | mem
    · exact ⟨e, mem, rfl, rfl⟩
    · obtain rfl := List.mem_singleton.1 mem
      exact (h _ _).1 here

theorem exact_new {entries : List RosRegistration} {entities : List (Direction × Entity)} {entry : RosRegistration}
    (h : ∀ direction entity, (direction, entity) ∈ entities ↔ ∃ e ∈ entries, e.binding.direction = direction ∧ e.entity = entity)
    (direction : Direction) (entity : Entity) :
    (direction, entity) ∈ entities ++ [(entry.binding.direction, entry.entity)] ↔
      ∃ e ∈ entries ++ [entry], e.binding.direction = direction ∧ e.entity = entity := by
  rw [List.mem_append, h, List.mem_singleton]
  constructor
  · intro found
    rcases found with ⟨e, mem, same⟩ | same
    · exact ⟨e, List.mem_append_left _ mem, same⟩
    · obtain ⟨rfl, rfl⟩ := Prod.mk.inj same
      exact ⟨entry, List.mem_append_right _ List.mem_cons_self, rfl, rfl⟩
  · intro found
    obtain ⟨e, mem, rfl, rfl⟩ := found
    rcases List.mem_append.1 mem with mem | mem
    · exact .inl ⟨e, mem, rfl, rfl⟩
    · obtain rfl := List.mem_singleton.1 mem
      exact .inr rfl

theorem once_new {entities : List (Direction × Entity)} {made : Direction × Entity} (once : entities.Nodup) (apart : made ∉ entities) :
    (entities ++ [made]).Nodup := by
  rw [← List.concat_eq_append]
  exact once.concat apart

theorem sharing_outward {entries : List RosRegistration} {entry : RosRegistration} (way : entry.binding.direction = .webToRos)
    (entity : Entity) : sharing (entries ++ [entry]) entity = sharing entries entity := by
  rw [sharing_append, if_neg (by rw [way]; simp), List.append_nil]

/-- The names of a subscription go under its key. -/
theorem Made.aliases_set {entries : List RosRegistration} {a : Adapter ν} {entry : RosRegistration} (made : Made entries a)
    (way : entry.binding.direction = .rosToWeb) {names : List String}
    (before : names = (sharing entries entry.entity).map (·.binding.publicName)) (entity : Entity) :
    ((a.subscriptions.set (entityKey entry.entity) (names ++ [entry.binding.publicName])).get? (entityKey entity)).getD [] =
      (sharing (entries ++ [entry]) entity).map (·.binding.publicName) := by
  rw [sharing_append, List.map_append, way, Table.get?_set]
  by_cases same : entry.entity = entity
  · subst same
    rw [if_pos rfl, if_pos ⟨rfl, rfl⟩, List.map_singleton, before]
    rfl
  · rw [if_neg fun e => same (entityKey_inj e).symm, if_neg fun h => same h.2, List.map_nil, List.append_nil, made.aliases]

theorem Made.subscribed_set {entries : List RosRegistration} {a : Adapter ν} (made : Made entries a) {own : Entity}
    (names : List String) (entity : Entity) :
    ((a.subscriptions.set (entityKey own) names).get? (entityKey entity)).isSome = true ↔
      (.rosToWeb, entity) ∈ a.entities ∨ entity = own := by
  rw [Table.get?_set]
  by_cases same : own = entity
  · subst same
    rw [if_pos rfl]
    exact ⟨fun _ => .inr rfl, fun _ => rfl⟩
  · rw [if_neg fun e => same (entityKey_inj e).symm, made.subscribed]
    exact ⟨.inl, fun h => h.resolve_right (Ne.symm same)⟩

/-- Nothing else changes. -/
def Adapter.Alike (a a' : Adapter ν) : Prop := a'.registrations = a.registrations ∧ a'.listeners = a.listeners ∧ a'.state = a.state

theorem made_step {entries : List RosRegistration} {a a' : Adapter ν} {entry : RosRegistration} (made : Made entries a)
    (h : a.startEntry backend entry = .ok a') : Made (entries ++ [entry]) a' ∧ a.Alike a' := by
  unfold Adapter.startEntry at h
  cases way : entry.binding.direction with
  | webToRos =>
    have aliases : ∀ entity, (a.subscriptions.get? (entityKey entity)).getD [] =
        (sharing (entries ++ [entry]) entity).map (·.binding.publicName) := by
      intro entity
      rw [sharing_outward way, made.aliases]
    simp only [way] at h
    split at h
    · next shared =>
      cases h
      have here := (made.publishers _).1 shared
      exact ⟨⟨made.once, exact_old made.exact (way ▸ here), made.publishers, aliases, made.subscribed⟩, rfl, rfl, rfl⟩
    · next fresh =>
      obtain ⟨-, -, h⟩ := exists_of_bind h
      cases h
      have apart : (.webToRos, entry.entity) ∉ a.entities := fun here => fresh ((made.publishers _).2 here)
      refine ⟨⟨once_new made.once apart, way ▸ exact_new made.exact, fun entity => ?_, aliases, fun entity => ?_⟩, rfl, rfl, rfl⟩
      · rw [List.mem_append, List.mem_append, made.publishers, List.mem_singleton, List.mem_singleton, Prod.mk.injEq]
        apply or_congr Iff.rfl
        constructor
        · exact fun same => ⟨rfl, entityKey_inj same⟩
        · exact fun same => same.2 ▸ rfl
      · rw [made.subscribed, List.mem_append, List.mem_singleton]
        simp
  | rosToWeb =>
    simp only [way] at h
    split at h
    · next names found =>
      cases h
      -- The entity is there already: the registration adds a name to its subscription.
      have here := (made.subscribed entry.entity).1 (by rw [found]; rfl)
      have before : names = (sharing entries entry.entity).map (·.binding.publicName) := by rw [← made.aliases, found]; rfl
      refine ⟨⟨made.once, exact_old made.exact (way ▸ here), made.publishers, made.aliases_set way before, fun entity => ?_⟩, rfl, rfl, rfl⟩
      rw [made.subscribed_set]
      exact ⟨fun h => h.elim id fun same => same ▸ here, .inl⟩
    · next missing =>
      obtain ⟨-, -, h⟩ := exists_of_bind h
      cases h
      have apart : (.rosToWeb, entry.entity) ∉ a.entities := by
        intro here
        have known := (made.subscribed _).2 here
        rw [missing] at known
        cases known
      have before : [] = (sharing entries entry.entity).map (·.binding.publicName) := by rw [← made.aliases, missing]; rfl
      refine ⟨⟨once_new made.once apart, way ▸ exact_new made.exact, fun entity => ?_, made.aliases_set way before,
        fun entity => ?_⟩, rfl, rfl, rfl⟩
      · rw [made.publishers, List.mem_append, List.mem_singleton]
        simp
      · rw [made.subscribed_set, List.mem_append, List.mem_singleton]
        simp

theorem made_all {entries : List RosRegistration} {a a' : Adapter ν} {rest : List RosRegistration} (made : Made entries a)
    (h : rest.foldlM (Adapter.startEntry backend) a = .ok a') : Made (entries ++ rest) a' ∧ a.Alike a' := by
  induction rest generalizing entries a with
  | nil =>
    cases h
    rw [List.append_nil]
    exact ⟨made, rfl, rfl, rfl⟩
  | cons entry rest ih =>
    rw [List.foldlM_cons] at h
    obtain ⟨b, first, h⟩ := exists_of_bind h
    obtain ⟨made, registrations, listeners, state⟩ := made_step made first
    obtain ⟨all, registrations', listeners', state'⟩ := ih made h
    rw [List.append_assoc] at all
    exact ⟨all, registrations'.trans registrations, listeners'.trans listeners, state'.trans state⟩

/-- A started adapter has made each entity once. -/
theorem start_made {registry : List RosRegistration} {a0 a : Adapter ν} (created : Adapter.create registry = .ok a0)
    (started : a0.start backend = (.ok (), a)) :
    (registry.map (·.binding.publicName)).Nodup ∧ Made registry a ∧ a.registrations = registry ∧ (∀ name, a.listeners name = []) ∧
      a.state = .running := by
  unfold Adapter.create at created
  split at created
  · next distinct =>
    obtain rfl := Except.ok.inj created
    unfold Adapter.start at started
    rw [if_neg (by simp)] at started
    dsimp only at started
    split at started
    · next b ran =>
      obtain rfl := congrArg Prod.snd started
      obtain ⟨c, all, ran⟩ := exists_of_bind ran
      obtain ⟨-, -, ran⟩ := exists_of_bind ran
      obtain rfl := Except.ok.inj ran
      have nothing : Made [] (⟨registry, fun _ => [], [], .empty, [], .new⟩ : Adapter ν) :=
        ⟨List.nodup_nil, fun _ _ => by simp, fun _ => by simp, fun _ => rfl, fun _ => by simp⟩
      obtain ⟨made, registrations, listeners, -⟩ := made_all nothing all
      refine ⟨distinct, ⟨made.once, made.exact, made.publishers, made.aliases, made.subscribed⟩, registrations, ?_, rfl⟩
      intro name
      exact congrFun listeners name
    · next e ran =>
      have failed := congrArg Prod.fst started
      dsimp only at failed
      split at failed <;> cases failed
  · cases created

end Start

/-! ## What code leaves alone -/

section Dispatch

variable {ν : Type} (backend : RosBackend) (callbacks : Callbacks ν)

namespace World

/-- Listeners may subscribe to a name. -/
def Offered (registry : List RosRegistration) (name : String) : Prop :=
  ∃ entry ∈ registry, entry.binding.publicName = name ∧ entry.binding.direction = .rosToWeb

/-- A listener is registered under a name by what was done, the latest first: it subscribed to a
name on offer before any closing, and neither its unsubscribing nor a closing came after. -/
def RegisteredBy (registry : List RosRegistration) (name : String) (callback : ν) : List (Op ν) → Prop
  | [] => False
  | .subscribe name' callback' :: before =>
    (name' = name ∧ callback' = callback ∧ Offered registry name ∧ .close ∉ before) ∨ RegisteredBy registry name callback before
  | .unsubscribe name' callback' :: before => ¬(name' = name ∧ callback' = callback) ∧ RegisteredBy registry name callback before
  | .close :: _ => False
  | .publish _ _ :: before | .start :: before | .write _ _ :: before => RegisteredBy registry name callback before

def Registered (w : World ν) (name : String) (callback : ν) : Prop :=
  RegisteredBy w.adapter.registrations name callback w.performed

/-- Nobody is registered once there was a closing. -/
theorem not_registeredBy_of_close {registry : List RosRegistration} {name : String} {callback : ν} {performed : List (Op ν)}
    (closed : .close ∈ performed) : ¬RegisteredBy registry name callback performed := by
  induction performed with
  | nil => cases closed
  | cons op before ih =>
    cases op with
    | close => exact id
    | subscribe name' callback' =>
      have earlier : Op.close ∈ before := by simpa using closed
      intro registered
      rcases registered with ⟨-, -, -, open'⟩ | registered
      · exact open' earlier
      · exact ih earlier registered
    | unsubscribe name' callback' => exact fun registered => ih (by simpa using closed) registered.2
    | publish | start | write => exact ih (by simpa using closed)

/-- What holds of a started adapter and the calls so far: it is closed where somebody closed it,
its listeners are those that are registered, and every call has a tree of its own. -/
structure Sound (w : World ν) : Prop where
  started : w.adapter.state ≠ .new
  closing : .close ∈ w.performed ↔ w.adapter.state = .closed
  names : (w.adapter.registrations.map (·.binding.publicName)).Nodup
  distinct : ∀ name, (w.adapter.listeners name).Nodup
  listed : ∀ name callback, callback ∈ w.adapter.listeners name ↔ w.Registered name callback
  made : ∀ c ∈ w.calls, c.tree < w.trees.length
  own : (w.calls.map (·.tree)).Nodup

/-- What is fixed at the start, and that closing is irreversible. -/
structure Fixed (w w' : World ν) : Prop where
  registrations : w'.adapter.registrations = w.adapter.registrations
  subscriptions : w'.adapter.subscriptions = w.adapter.subscriptions
  entities : w'.adapter.entities = w.adapter.entities
  closed : w.adapter.state ≠ .running → w'.adapter.state ≠ .running

theorem Fixed.refl (w : World ν) : Fixed w w := ⟨rfl, rfl, rfl, id⟩

theorem Fixed.trans {w w' w'' : World ν} (h : Fixed w w') (h' : Fixed w' w'') : Fixed w w'' :=
  ⟨h'.registrations.trans h.registrations, h'.subscriptions.trans h.subscriptions, h'.entities.trans h.entities, h'.closed ∘ h.closed⟩

/-- No listener is called, and no tree made. -/
structure Quiet (w w' : World ν) : Prop where
  fixed : Fixed w w'
  calls : w'.calls = w.calls
  trees : w'.trees.length = w.trees.length

theorem Quiet.refl (w : World ν) : Quiet w w := ⟨.refl w, rfl, rfl⟩

theorem Quiet.trans {w w' w'' : World ν} (h : Quiet w w') (h' : Quiet w' w'') : Quiet w w'' :=
  ⟨h.fixed.trans h'.fixed, h'.calls.trans h.calls, h'.trees.trans h.trees⟩

theorem Sound.running {w : World ν} (sound : w.Sound) : .close ∉ w.performed ↔ w.adapter.state = .running := by
  rw [sound.closing]
  have started := sound.started
  cases state : w.adapter.state with
  | new => exact absurd state started
  | running => exact iff_of_true AdapterState.noConfusion rfl
  | closed => exact iff_of_false (fun open' => open' rfl) AdapterState.noConfusion

/-- A stopped adapter has no listeners. -/
theorem Sound.silent {w : World ν} (sound : w.Sound) (stopped : w.adapter.state ≠ .running) (name : String) :
    w.adapter.listeners name = [] := by
  rw [List.eq_nil_iff_forall_not_mem]
  intro callback mem
  have closed : .close ∈ w.performed := not_not.1 fun apart => stopped (sound.running.1 apart)
  exact not_registeredBy_of_close closed ((sound.listed name callback).1 mem)

/-- Something other than closing is done, and the listeners are again those that are registered. -/
theorem Sound.after {w : World ν} (sound : w.Sound) (op : Op ν) (apart : op ≠ .close) {listeners : String → List ν}
    (distinct : ∀ name, (listeners name).Nodup)
    (listed : ∀ name callback, callback ∈ listeners name ↔ RegisteredBy w.adapter.registrations name callback (op :: w.performed)) :
    Sound { w with adapter := { w.adapter with listeners := listeners }, performed := op :: w.performed } ∧
      Quiet w { w with adapter := { w.adapter with listeners := listeners }, performed := op :: w.performed } := by
  refine ⟨⟨sound.started, ?_, sound.names, distinct, listed, sound.made, sound.own⟩, ⟨rfl, rfl, rfl, id⟩, rfl, rfl⟩
  rw [List.mem_cons, or_iff_right apart.symm]
  exact sound.closing

variable [DecidableEq ν]

theorem find_registration {registry : List RosRegistration} {entry : RosRegistration}
    (distinct : (registry.map (·.binding.publicName)).Nodup) (mem : entry ∈ registry) :
    registry.find? (·.binding.publicName = entry.binding.publicName) = some entry := by
  induction registry with
  | nil => cases mem
  | cons first rest ih =>
    rw [List.map_cons, List.nodup_cons] at distinct
    rcases List.mem_cons.1 mem with rfl | mem
    · exact List.find?_cons_of_pos (decide_eq_true rfl)
    · have other : first.binding.publicName ≠ entry.binding.publicName := by
        intro same
        exact distinct.1 (same ▸ List.mem_map_of_mem mem)
      rw [List.find?_cons_of_neg (by simpa using other), ih distinct.2 mem]

omit [DecidableEq ν] in
/-- Subscribing is accepted under a name on offer, until the adapter is closed. -/
theorem registration_ok_iff {w : World ν} (sound : w.Sound) (name : String) :
    (∃ entry, w.adapter.registration name .rosToWeb = .ok entry) ↔
      Offered w.adapter.registrations name ∧ .close ∉ w.performed := by
  rw [sound.running]
  unfold Adapter.registration
  constructor
  · intro allowed
    obtain ⟨entry, allowed⟩ := allowed
    split at allowed
    · cases allowed
    · next running =>
      split at allowed
      · next entry' found =>
        split at allowed
        · cases allowed
        · next direction =>
          have named := List.find?_some found
          exact ⟨⟨entry', List.mem_of_find?_eq_some found, of_decide_eq_true named, not_not.1 direction⟩, not_not.1 running⟩
      · cases allowed
  · intro allowed
    obtain ⟨⟨entry, mem, rfl, direction⟩, running⟩ := allowed
    rw [if_neg (not_not.2 running), find_registration sound.names mem]
    exact ⟨entry, if_neg (not_not.2 direction)⟩

theorem subscribe_quiet (name : String) (callback : ν) {w : World ν} (sound : w.Sound) :
    (perform backend (.subscribe name callback) w).2.Sound ∧ Quiet w (perform backend (.subscribe name callback) w).2 := by
  have accepts := registration_ok_iff sound name
  dsimp only [perform, subscribe]
  split
  -- A call that is refused registers nobody.
  · next e refused =>
    have denied : ¬(Offered w.adapter.registrations name ∧ .close ∉ w.performed) := by
      rw [← accepts]
      intro allowed
      obtain ⟨entry, allowed⟩ := allowed
      cases refused.symm.trans allowed
    apply sound.after (.subscribe name callback) (by simp) sound.distinct
    intro other listener
    rw [sound.listed]
    constructor
    · exact .inr
    · intro registered
      rcases registered with ⟨rfl, -, allowed⟩ | registered
      · exact absurd allowed denied
      · exact registered
  · next entry allowed =>
    obtain ⟨offered, open'⟩ := accepts.1 ⟨entry, allowed⟩
    apply sound.after (.subscribe name callback) (by simp)
    · intro other
      by_cases same : other = name
      · rw [same, Function.update_self]
        split
        · exact sound.distinct name
        · next fresh => exact List.nodup_append.2 ⟨sound.distinct name, List.nodup_singleton _, fun x mem y mem' same => by
            rw [List.mem_singleton.1 mem'] at same
            exact fresh (same ▸ mem)⟩
      · rw [Function.update_of_ne same]
        exact sound.distinct other
    · intro other listener
      have before := sound.listed other listener
      by_cases same : other = name
      · subst same
        rw [Function.update_self]
        have added : listener ∈ (if callback ∈ w.adapter.listeners other then w.adapter.listeners other
            else w.adapter.listeners other ++ [callback]) ↔ callback = listener ∨ listener ∈ w.adapter.listeners other := by
          split
          · next there => exact ⟨.inr, fun h => h.elim (fun same => same ▸ there) id⟩
          · rw [List.mem_append, List.mem_singleton, or_comm, eq_comm]
        rw [added, before]
        exact or_congr_left ⟨fun same => ⟨rfl, same, offered, open'⟩, fun h => h.2.1⟩
      · rw [Function.update_of_ne same, before]
        exact ⟨.inr, fun h => h.elim (fun h => absurd h.1.symm same) id⟩

theorem unsubscribe_quiet (name : String) (callback : ν) {w : World ν} (sound : w.Sound) :
    (perform backend (.unsubscribe name callback) w).2.Sound ∧ Quiet w (perform backend (.unsubscribe name callback) w).2 := by
  apply sound.after (.unsubscribe name callback) (by simp)
  · intro other
    by_cases same : other = name
    · rw [same, Function.update_self]
      exact (sound.distinct name).filter _
    · rw [Function.update_of_ne same]
      exact sound.distinct other
  · intro other listener
    have before := sound.listed other listener
    show _ ↔ ¬(name = other ∧ callback = listener) ∧ w.Registered other listener
    rw [← before]
    by_cases same : other = name
    · subst same
      rw [Function.update_self, List.mem_filter, decide_eq_true_iff]
      constructor
      · exact fun h => ⟨fun both => h.2 both.2.symm, h.1⟩
      · exact fun h => ⟨h.2, fun it => h.1 ⟨rfl, it.symm⟩⟩
    · rw [Function.update_of_ne same]
      exact ⟨fun h => ⟨fun both => same both.1.symm, h⟩, And.right⟩

theorem perform_quiet (op : Op ν) {w : World ν} (sound : w.Sound) :
    (perform backend op w).2.Sound ∧ Quiet w (perform backend op w).2 := by
  cases op with
  | subscribe name callback => exact subscribe_quiet backend name callback sound
  | unsubscribe name callback => exact unsubscribe_quiet backend name callback sound
  | publish name native =>
    obtain ⟨still, quiet⟩ := sound.after (.publish name native) (by simp) sound.distinct sound.listed
    dsimp only [perform, publish]
    split
    · exact ⟨still, quiet⟩
    · split
      · exact ⟨still, quiet⟩
      · exact ⟨⟨still.started, still.closing, still.names, still.distinct, still.listed, still.made, still.own⟩,
          ⟨rfl, rfl, rfl, id⟩, rfl, rfl⟩
  | start =>
    have none : w.adapter.start backend = (.error "ros_adapter_not_new", w.adapter) := if_pos sound.started
    dsimp only [perform]
    rw [none]
    exact sound.after (.start) (by simp) sound.distinct sound.listed
  | close =>
    have closed : Op.close ∈ Op.close :: w.performed := List.mem_cons_self
    dsimp only [perform, close]
    split
    -- Closing again: nobody was left.
    · next stopped =>
      have nobody := sound.silent (stopped.trans_ne AdapterState.noConfusion)
      refine ⟨⟨sound.started, iff_of_true closed stopped, sound.names, sound.distinct, fun name callback => ?_, sound.made, sound.own⟩,
        ⟨rfl, rfl, rfl, id⟩, rfl, rfl⟩
      rw [nobody name]
      exact iff_of_false List.not_mem_nil id
    · refine ⟨⟨AdapterState.noConfusion, iff_of_true closed rfl, sound.names, fun _ => List.nodup_nil, fun name callback => ?_,
        sound.made, sound.own⟩, ⟨rfl, rfl, rfl, fun _ => AdapterState.noConfusion⟩, rfl, rfl⟩
      exact iff_of_false List.not_mem_nil id
  | write tree native =>
    obtain ⟨still, -⟩ := sound.after (.write tree native) (by simp) sound.distinct sound.listed
    dsimp only [perform]
    exact ⟨⟨still.started, still.closing, still.names, still.distinct, still.listed,
      fun c mem => by rw [List.length_set]; exact sound.made c mem, still.own⟩, ⟨rfl, rfl, rfl, id⟩, rfl, List.length_set⟩

/-- Code that calls the adapter calls no listener. -/
theorem exec_quiet (code : Code ν) {w : World ν} (sound : w.Sound) :
    (code.exec (perform backend) w).2.Sound ∧ Quiet w (code.exec (perform backend) w).2 := by
  apply exec_inv (I := fun w' => w'.Sound ∧ Quiet w w')
  · intro op w' h
    obtain ⟨sound', quiet⟩ := perform_quiet backend op h.1
    exact ⟨sound', h.2.trans quiet⟩
  · exact ⟨sound, .refl w⟩

theorem report_quiet (error : String) {w : World ν} (sound : w.Sound) :
    (w.report backend callbacks error).Sound ∧ Quiet w (w.report backend callbacks error) := exec_quiet backend _ sound

/-! ## Dispatch -/

/-- A listener is called once, with a new tree. -/
theorem notify_spec (name : String) (native : Value) (callback : ν) {w : World ν} (sound : w.Sound) :
    (w.notify backend callbacks name native callback).Sound ∧ Fixed w (w.notify backend callbacks name native callback) ∧
      (w.notify backend callbacks name native callback).calls = w.calls ++ [⟨name, callback, w.trees.length, native⟩] := by
  -- The tree is made before the listener runs, so whatever it does the tree is taken.
  have given : Sound { w with
      trees := w.trees ++ [native], calls := w.calls ++ [⟨name, callback, w.trees.length, native⟩] } := by
    refine ⟨sound.started, sound.closing, sound.names, sound.distinct, sound.listed, ?_, ?_⟩
    · intro c mem
      rw [List.length_append]
      rcases List.mem_append.1 mem with mem | mem
      · exact Nat.lt_add_right _ (sound.made c mem)
      · rw [List.mem_singleton.1 mem]
        exact Nat.lt_succ_self _
    · rw [List.map_append]
      refine List.nodup_append.2 ⟨sound.own, List.nodup_singleton _, fun x mem y mem' same => ?_⟩
      obtain ⟨c, inside, rfl⟩ := List.mem_map.1 mem
      have small := sound.made c inside
      have last : y = w.trees.length := List.mem_singleton.1 mem'
      omega
  unfold notify
  dsimp only
  obtain ⟨ran, quiet⟩ := exec_quiet backend (callbacks.listener callback _ w.trees.length) given
  split
  · exact ⟨ran, ⟨quiet.fixed.registrations, quiet.fixed.subscriptions, quiet.fixed.entities, quiet.fixed.closed⟩, quiet.calls⟩
  · next e _ =>
    obtain ⟨reported, quiet'⟩ := report_quiet backend callbacks e ran
    have both := quiet.trans quiet'
    exact ⟨reported, ⟨both.fixed.registrations, both.fixed.subscriptions, both.fixed.entities, both.fixed.closed⟩, both.calls⟩

variable {entry : RosRegistration} {wire native : Value}

theorem visit_spec (accepted : entry.codec.decode wire = .ok native) (callback : ν) {w : World ν} (sound : w.Sound) :
    (w.visit backend callbacks entry.binding.publicName entry.codec wire callback).Sound ∧
      Fixed w (w.visit backend callbacks entry.binding.publicName entry.codec wire callback) ∧
      (w.visit backend callbacks entry.binding.publicName entry.codec wire callback).calls =
        w.calls ++ if callback ∈ w.adapter.listeners entry.binding.publicName then
          [⟨entry.binding.publicName, callback, w.trees.length, native⟩] else [] := by
  unfold visit
  by_cases registered : callback ∈ w.adapter.listeners entry.binding.publicName
  · rw [if_neg (not_not.2 registered), if_pos registered, accepted]
    exact notify_spec backend callbacks _ native callback sound
  · rw [if_pos registered, if_neg registered, List.append_nil]
    exact ⟨sound, .refl w, rfl⟩

variable (entry wire) in
/-- The state when the turn of a listener comes, after those in front of it. -/
def turn (w : World ν) (before : List ν) : World ν :=
  before.foldl (visit backend callbacks entry.binding.publicName entry.codec wire) w

/-- The loop over the listeners: each of them that is registered when its turn comes is called
once. The induction is on the listeners that are left. -/
theorem visits_spec (accepted : entry.codec.decode wire = .ok native) {listeners : List ν} (distinct : listeners.Nodup) {w : World ν}
    (sound : w.Sound) : (w.turn backend callbacks entry wire listeners).Sound ∧ Fixed w (w.turn backend callbacks entry wire listeners) ∧
      ∃ new, (w.turn backend callbacks entry wire listeners).calls = w.calls ++ new ∧
        (∀ c ∈ new, c.publicName = entry.binding.publicName ∧ c.callback ∈ listeners) ∧
        ∀ before callback after, listeners = before ++ callback :: after →
          new.filter (·.callback = callback) =
            if callback ∈ (w.turn backend callbacks entry wire before).adapter.listeners entry.binding.publicName then
              [⟨entry.binding.publicName, callback, (w.turn backend callbacks entry wire before).trees.length, native⟩] else [] := by
  -- The first listener has its turn now, and the others have theirs in the state it leaves.
  induction listeners generalizing w with
  | nil => exact ⟨sound, .refl w, [], (List.append_nil _).symm, by simp, fun before callback after e => by simp at e⟩
  | cons first rest ih =>
    rw [List.nodup_cons] at distinct
    obtain ⟨sound', fixed, calls⟩ := visit_spec backend callbacks accepted first sound
    obtain ⟨sound'', fixed', new, calls', names, each⟩ := ih distinct.2 sound'
    refine ⟨sound'', fixed.trans fixed', _, calls'.trans (by rw [calls, List.append_assoc]), ?_, ?_⟩
    · intro c mem
      rcases List.mem_append.1 mem with mem | mem
      · split at mem
        · rw [List.mem_singleton.1 mem]
          exact ⟨rfl, List.mem_cons_self⟩
        · cases mem
      · exact ⟨(names c mem).1, List.mem_cons_of_mem _ (names c mem).2⟩
    · intro before callback after e
      rw [List.filter_append]
      cases before with
      | nil =>
        obtain ⟨rfl, rfl⟩ := List.cons.inj e
        -- Nobody after the first is the first.
        have others : new.filter (·.callback = first) = [] := by
          rw [List.filter_eq_nil_iff]
          intro c mem same
          exact distinct.1 (of_decide_eq_true same ▸ (names c mem).2)
        rw [others, List.append_nil]
        show _ = if first ∈ w.adapter.listeners entry.binding.publicName then _ else _
        split
        · exact List.filter_eq_self.2 fun c mem => by rw [List.mem_singleton.1 mem]; exact decide_eq_true rfl
        · rfl
      | cons head before =>
        obtain ⟨rfl, rest⟩ := List.cons.inj e
        have other : callback ≠ first := by
          intro same
          subst same
          rw [rest] at distinct
          exact distinct.1 (List.mem_append_right _ List.mem_cons_self)
        have none : (if first ∈ w.adapter.listeners entry.binding.publicName then
            [(⟨entry.binding.publicName, first, w.trees.length, native⟩ : Called ν)] else []).filter (·.callback = callback) = [] := by
          rw [List.filter_eq_nil_iff]
          intro c mem same
          split at mem
          · rw [List.mem_singleton.1 mem] at same
            exact other (of_decide_eq_true same).symm
          · cases mem
        rw [none, List.nil_append]
        exact each before callback after rest

/-- A sample is refused or dispatched under a name. An adapter that was closed ignores it. A
codec that accepts it normalises it, and each listener that is registered under the name at
the start, and is so when its turn comes, is called once, with a tree that was not there
before; nobody else is called, and nobody is registered after a closing. -/
structure FansOut (backend : RosBackend) (callbacks : Callbacks ν) (entry : RosRegistration) (native : Value) (w : World ν) : Prop where
  closed : .close ∈ w.performed → w.receive backend callbacks native entry.binding.publicName = w
  refused : ∀ e, entry.codec.encode native = .error e →
    (w.receive backend callbacks native entry.binding.publicName).calls = w.calls
  distinct : (w.adapter.listeners entry.binding.publicName).Nodup
  listed : ∀ callback, callback ∈ w.adapter.listeners entry.binding.publicName ↔ w.Registered entry.binding.publicName callback
  accepted : .close ∉ w.performed → ∀ wire, entry.codec.encode native = .ok wire → ∃ value new,
    normalized entry.codec native = .ok value ∧
    (w.receive backend callbacks native entry.binding.publicName).calls = w.calls ++ new ∧
    (∀ c ∈ new, c.publicName = entry.binding.publicName ∧ w.Registered entry.binding.publicName c.callback) ∧
    ∀ before callback after, w.adapter.listeners entry.binding.publicName = before ++ callback :: after →
      ((w.turn backend callbacks entry wire before).Registered entry.binding.publicName callback →
        new.filter (·.callback = callback) =
          [⟨entry.binding.publicName, callback, (w.turn backend callbacks entry wire before).trees.length, value⟩]) ∧
      (¬(w.turn backend callbacks entry wire before).Registered entry.binding.publicName callback →
        new.filter (·.callback = callback) = []) ∧
      (.close ∈ (w.turn backend callbacks entry wire before).performed →
        ¬(w.turn backend callbacks entry wire before).Registered entry.binding.publicName callback)

/-- What a codec encodes it decodes. -/
theorem decode_encoded (encoded : entry.codec.encode native = .ok wire) : ∃ value, entry.codec.decode wire = .ok value := by
  obtain ⟨descriptor, overrides, created⟩ := entry.created
  obtain ⟨schema, valid, -⟩ := created_spec created
  exact ⟨_, (convert_back (schema ▸ valid) encoded).1⟩

theorem receive_spec (native : Value) {w : World ν} (sound : w.Sound)
    (found : w.adapter.registrations.find? (·.binding.publicName = entry.binding.publicName) = some entry) :
    (w.receive backend callbacks native entry.binding.publicName).Sound ∧
      Fixed w (w.receive backend callbacks native entry.binding.publicName) ∧ FansOut backend callbacks entry native w := by
  have distinct := sound.distinct entry.binding.publicName
  have listed := sound.listed entry.binding.publicName
  by_cases running : w.adapter.state = .running
  · have open' := sound.running.2 running
    cases encoded : entry.codec.encode native with
    | error e =>
      -- The codec refuses the sample: the error is reported and nobody is called.
      have same : w.receive backend callbacks native entry.binding.publicName = w.report backend callbacks e := by
        unfold receive
        rw [if_neg (not_not.2 running), found]
        simp only [encoded]
      obtain ⟨sound', quiet⟩ := report_quiet backend callbacks e sound
      rw [same]
      refine ⟨sound', quiet.fixed, fun closed => absurd closed open', fun _ _ => same ▸ quiet.calls, distinct, listed,
        fun _ wire accepted => ?_⟩
      rw [encoded] at accepted
      cases accepted
    | ok wire =>
      -- Every listener gets a new tree, decoded from the one wire value.
      obtain ⟨value, decoded⟩ := decode_encoded encoded
      have same : w.receive backend callbacks native entry.binding.publicName =
          w.turn backend callbacks entry wire (w.adapter.listeners entry.binding.publicName) := by
        unfold receive
        rw [if_neg (not_not.2 running), found]
        simp only [encoded]
        rfl
      obtain ⟨sound', fixed, new, calls, names, each⟩ := visits_spec backend callbacks decoded distinct sound
      rw [same]
      refine ⟨sound', fixed, fun closed => absurd closed open', fun e refused => ?_, distinct, listed, fun _ wire' accepted => ?_⟩
      · rw [encoded] at refused
        cases refused
      · rw [encoded] at accepted
        obtain rfl := Except.ok.inj accepted
        have normal : normalized entry.codec native = .ok value := by
          unfold normalized
          rw [encoded]
          exact decoded
        refine ⟨value, new, normal, same ▸ calls, fun c mem => ⟨(names c mem).1, (listed _).1 (names c mem).2⟩,
          fun before callback after split => ?_⟩
        have here := each before callback after split
        have front : before.Nodup := by
          rw [split] at distinct
          exact (List.nodup_append.1 distinct).1
        have later := (visits_spec backend callbacks decoded front sound).1
        have known := later.listed entry.binding.publicName callback
        exact ⟨fun registered => here.trans (if_pos (known.2 registered)),
          fun gone => here.trans (if_neg fun mem => gone (known.1 mem)), not_registeredBy_of_close⟩
  · have same : w.receive backend callbacks native entry.binding.publicName = w := if_pos running
    rw [same]
    have closed : .close ∈ w.performed := not_not.1 fun apart => running (sound.running.1 apart)
    exact ⟨sound, .refl w, fun _ => same, fun _ _ => congrArg calls same, distinct, listed, fun open' => absurd closed open'⟩

/-- A sample is received under one name after the other. -/
theorem receives_spec {registry : List RosRegistration} (native : Value) (distinct : (registry.map (·.binding.publicName)).Nodup)
    {entries : List RosRegistration} (inside : ∀ entry ∈ entries, entry ∈ registry) {w : World ν} (sound : w.Sound)
    (registrations : w.adapter.registrations = registry) :
    ((entries.map (·.binding.publicName)).foldl (receive backend callbacks native) w).Sound ∧
      Fixed w ((entries.map (·.binding.publicName)).foldl (receive backend callbacks native) w) := by
  induction entries generalizing w with
  | nil => exact ⟨sound, .refl w⟩
  | cons entry entries ih =>
    rw [List.forall_mem_cons] at inside
    have found := find_registration distinct inside.1
    rw [← registrations] at found
    obtain ⟨sound', fixed, -⟩ := receive_spec backend callbacks native sound found
    obtain ⟨sound'', fixed'⟩ := ih inside.2 sound' (fixed.registrations.trans registrations)
    exact ⟨sound'', fixed.trans fixed'⟩

/-- Nobody is called by a closed adapter. -/
theorem receives_stopped (native : Value) (names : List String) {w : World ν} (stopped : w.adapter.state ≠ .running) :
    names.foldl (receive backend callbacks native) w = w := by
  induction names with
  | nil => rfl
  | cons name names ih =>
    rw [List.foldl_cons, show w.receive backend callbacks native name = w from if_pos stopped, ih]

end World

end Dispatch

/-! ## Runs -/

section Runs

variable {ν : Type} {backend : RosBackend} {callbacks : Callbacks ν}

open World

/-- A started adapter with what it made at its start. -/
structure Started (registry : List RosRegistration) (a : Adapter ν) (w : World ν) : Prop where
  sound : w.Sound
  registrations : w.adapter.registrations = registry
  subscriptions : w.adapter.subscriptions = a.subscriptions
  entities : w.adapter.entities = a.entities

theorem Started.next {registry : List RosRegistration} {a : Adapter ν} {w w' : World ν} (h : Started registry a w) (sound : w'.Sound)
    (fixed : Fixed w w') : Started registry a w' :=
  ⟨sound, fixed.registrations.trans h.registrations, fixed.subscriptions.trans h.subscriptions, fixed.entities.trans h.entities⟩

variable [DecidableEq ν]

/-- A sample goes to the names that share its subscription. -/
theorem sample_eq {registry : List RosRegistration} {a : Adapter ν} {w : World ν} (made : Made registry a) (h : Started registry a w)
    (entity : Entity) (native : Value) : w.sample backend callbacks entity native =
      ((sharing registry entity).map (·.binding.publicName)).foldl (receive backend callbacks native) w := by
  unfold sample
  rw [h.subscriptions, made.aliases]

theorem mem_of_sharing {registry : List RosRegistration} {entity : Entity} {entry : RosRegistration}
    (mem : entry ∈ sharing registry entity) : entry ∈ registry := (List.mem_filter.1 mem).1

theorem started_step {registry : List RosRegistration} {a : Adapter ν} (distinct : (registry.map (·.binding.publicName)).Nodup)
    (made : Made registry a) {w : World ν} (h : Started registry a w) (input : Input ν) :
    Started registry a (w.step backend callbacks input) ∧
      (w.adapter.state ≠ .running → (w.step backend callbacks input).adapter.state ≠ .running ∧
        (w.step backend callbacks input).calls = w.calls) := by
  cases input with
  | code code =>
    obtain ⟨sound, quiet⟩ := exec_quiet backend code h.sound
    exact ⟨h.next sound quiet.fixed, fun stopped => ⟨quiet.fixed.closed stopped, quiet.calls⟩⟩
  | sample entity native =>
    dsimp only [step]
    split
    · rw [sample_eq made h]
      obtain ⟨sound, fixed⟩ := receives_spec backend callbacks native distinct
        (fun entry mem => mem_of_sharing mem) h.sound h.registrations
      refine ⟨h.next sound fixed, fun stopped => ?_⟩
      rw [receives_stopped backend callbacks native _ stopped]
      exact ⟨stopped, rfl⟩
    · exact ⟨h, fun stopped => ⟨stopped, rfl⟩⟩

/-- A started adapter to which nothing was done yet. -/
def World.initial (a : Adapter ν) : World ν := ⟨a, [], [], [], []⟩

/-- The adapter of a registry with distinct names, once started, has one native entity for
each topic, type, QoS and direction. In every run, a sample of one of them is dispatched
to the names that share it, one after the other, and each dispatch reaches the listeners
of its name; every call has a tree of its own; and nobody is called after a closing. -/
theorem fan_out {registry : List RosRegistration} {a0 a : Adapter ν} (created : Adapter.create registry = .ok a0)
    (started : a0.start backend = (.ok (), a)) (callbacks : Callbacks ν) (inputs : List (Input ν)) :
    let w := run backend callbacks inputs (.initial a)
    (a.entities.Nodup ∧ ∀ direction entity, (direction, entity) ∈ a.entities ↔
      ∃ entry ∈ registry, entry.binding.direction = direction ∧ entry.entity = entity) ∧
    (∀ entity native, (.rosToWeb, entity) ∈ a.entities →
      w.step backend callbacks (.sample entity native) =
        ((sharing registry entity).map (·.binding.publicName)).foldl (receive backend callbacks native) w ∧
      ∀ before entry after, sharing registry entity = before ++ entry :: after →
        FansOut backend callbacks entry native ((before.map (·.binding.publicName)).foldl (receive backend callbacks native) w)) ∧
    (w.calls.map (·.tree)).Nodup ∧
    (∀ name callback, callback ∈ w.adapter.listeners name ↔ RegisteredBy registry name callback w.performed) ∧
    (.close ∈ w.performed → (∀ name, w.adapter.listeners name = []) ∧
      ∀ later, (run backend callbacks later w).calls = w.calls) := by
  intro w
  obtain ⟨distinct, made, registrations, listeners, state⟩ := start_made created started
  have first : Started registry a (.initial a) := by
    refine ⟨⟨?_, ?_, ?_, fun name => ?_, fun name callback => ?_, by simp [World.initial], List.nodup_nil⟩, registrations, rfl, rfl⟩
    · exact state.trans_ne AdapterState.noConfusion
    · exact iff_of_false List.not_mem_nil (state.trans_ne AdapterState.noConfusion)
    · exact registrations.symm ▸ distinct
    · exact (listeners name).symm ▸ List.nodup_nil
    · exact iff_of_false ((listeners name).symm ▸ List.not_mem_nil) id
  have reached : Started registry a w := by
    apply foldl_inv (I := Started registry a) _ first inputs
    intro w input h
    exact (started_step distinct made h input).1
  refine ⟨⟨made.once, made.exact⟩, fun entity native there => ⟨?_, fun before entry after split => ?_⟩, reached.sound.own,
    fun name callback => ?_, fun closed => ?_⟩
  · rw [step, if_pos (reached.entities.symm ▸ there), sample_eq made reached]
  · have inside : ∀ e ∈ before ++ entry :: after, e ∈ registry := fun e mem => mem_of_sharing (split ▸ mem)
    obtain ⟨sound, fixed⟩ := receives_spec backend callbacks native distinct
      (fun e mem => inside e (List.mem_append_left _ mem)) reached.sound reached.registrations
    have found := find_registration distinct (inside entry (List.mem_append_right _ List.mem_cons_self))
    rw [← fixed.registrations.trans reached.registrations] at found
    exact (receive_spec backend callbacks native sound found).2.2
  · rw [reached.sound.listed, Registered, reached.registrations]
  · have stopped : w.adapter.state ≠ .running := fun running => reached.sound.running.2 running closed
    refine ⟨reached.sound.silent stopped, fun later => ?_⟩
    -- Once it is stopped, no input starts it again or calls anybody.
    have keep : ∀ w' input, (Started registry a w' ∧ w'.adapter.state ≠ .running ∧ w'.calls = w.calls) →
        Started registry a (w'.step backend callbacks input) ∧ (w'.step backend callbacks input).adapter.state ≠ .running ∧
          (w'.step backend callbacks input).calls = w.calls := by
      intro w' input h
      obtain ⟨next, silent⟩ := started_step distinct made h.1 input
      exact ⟨next, (silent h.2.1).1, (silent h.2.1).2.trans h.2.2⟩
    exact (foldl_inv keep ⟨reached, stopped, rfl⟩ later).2.2

end Runs

/-! ## Two names of one topic -/

def quietBackend : RosBackend := ⟨fun _ _ => .ok (), fun _ _ => .ok (), .ok (), .ok ()⟩

theorem one_pos : (0 : ℚ) < 1 := by norm_num

theorem fifo_reliable : Delivery.reliable = .reliable ↔ QueuePolicy.fifo = .fifo := ⟨fun _ => rfl, fun _ => rfl⟩

theorem fifo_bound {n : Nat} : QueuePolicy.fifo = .latest → n = 1 := fun h => by cases h

def booleanBinding (name : String) : TopicBinding :=
  ⟨name, "/topic", "std_msgs/msg/Bool", .rosToWeb, ⟨.reliable, .volatile, 1⟩, .reliable, 1, ⟨.fifo, 4⟩, none, none,
    one_pos, fifo_reliable, fifo_bound⟩

def booleanCodec : Codec := ⟨.boolean, ⟨32, 4096, 16384, 16384, 32768, true⟩⟩

theorem booleanCodec_created : ∃ descriptor overrides, createCodec descriptor overrides = .ok booleanCodec := ⟨.boolean, {}, rfl⟩

def booleanRegistry : List RosRegistration :=
  ["/a", "/b"].map fun name => ⟨booleanBinding name, booleanCodec, booleanCodec_created⟩

/-- Calls one after the other, and then an exception or none. -/
def calling (ops : List (Op Nat)) (thrown : Except String Unit) : Code Nat :=
  ops.foldr (fun op rest => .perform op fun _ => rest) (.done thrown)

/-- The first listener removes the second of its name and throws. -/
def rudeCallbacks : Callbacks Nat where
  listener callback _ _ := if callback = 0 then calling [.unsubscribe "/a" 1] (.error "listener") else calling [] (.ok ())
  onError _ _ := calling [] (.ok ())

def booleanEntity : Entity := ⟨"std_msgs/msg/Bool", "/topic", ⟨.reliable, .volatile, 1⟩⟩

def listening : List (World.Input Nat) :=
  [.code (calling [.subscribe "/a" 0, .subscribe "/a" 1, .subscribe "/b" 2] (.ok ())), .sample booleanEntity (.boolean true)]

def closing : List (World.Input Nat) := listening ++ [.code (calling [.close] (.ok ()))]

/-- Both names share one subscription; the listener that was removed in time is not called, the
one of the other name is. After a closing nobody is. -/
theorem fan_out_shared : ∃ a0 a : Adapter Nat, Adapter.create booleanRegistry = .ok a0 ∧ a0.start quietBackend = (.ok (), a) ∧
    a.entities = [(.rosToWeb, booleanEntity)] ∧
    let w := World.run quietBackend rudeCallbacks listening (.initial a)
    w.calls.map (·.callback) = [0, 2] ∧ (w.calls.map (·.tree)).Nodup ∧
      (World.run quietBackend rudeCallbacks [.sample booleanEntity (.boolean true)] w).calls.length = 4 ∧
      (World.run quietBackend rudeCallbacks [.sample booleanEntity (.boolean true)]
        (World.run quietBackend rudeCallbacks closing (.initial a))).calls = w.calls := by
  have created : Adapter.create booleanRegistry = .ok (⟨booleanRegistry, fun _ => [], [], .empty, [], .new⟩ : Adapter Nat) := by rfl
  have started : Adapter.start quietBackend (⟨booleanRegistry, fun _ => [], [], .empty, [], .new⟩ : Adapter Nat) =
      (.ok (), (Adapter.start quietBackend ⟨booleanRegistry, fun _ => [], [], .empty, [], .new⟩).2) := by rfl
  obtain ⟨-, -, own, -⟩ := fan_out created started rudeCallbacks listening
  obtain ⟨-, -, -, -, closed⟩ := fan_out created started rudeCallbacks closing
  refine ⟨_, _, created, started, rfl, by decide +kernel, own, by decide +kernel, ?_⟩
  exact ((closed List.mem_cons_self).2 _).trans rfl

end RosBridge.Ros
