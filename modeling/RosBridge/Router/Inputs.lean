import RosBridge.Router.Publishing
import RosBridge.Router.Runs
/-!
# Runs take steps only

`input_goes`: whatever an input does is a sequence of steps, so what steps keep holds in
every reachable bridge.
-/

namespace RosBridge.Router

open Lib Prog Session Config Relation CommandGuard

variable {η : Type} {allow : Allow} {env : Env η}

/-! ## Receiving -/

theorem parse_walks (k : Nat) (label : String) (raw : Raw) (w : World η) :
    Walks allow none (parse env k label raw) w fun parsed w' =>
      (∃ t window count, w'.routers k = { w.routers k with lastTime := t, controlWindow := window, controlCount := count }) ∧
        isChannel label = some parsed.1 ∧ parseWire raw (w.routers k).maxBytes = .ok parsed.2.1 ∧
        requestId parsed.2.1 = .ok parsed.2.2 := by
  unfold parse
  split
  · exact .throw _
  next channel _ =>
  refine Walks.bind (Q := fun _ w' => ∃ t window count,
    w'.routers k = { w.routers k with lastTime := t, controlWindow := window, controlCount := count }) ?_ ?_
  · exact Walks.when (fun _ => controlRate_walks none k w) fun _ =>
      ⟨(w.routers k).lastTime, (w.routers k).controlWindow, (w.routers k).controlCount, rfl⟩
  rintro _ w₁ _ ⟨t, window, count, same⟩
  refine (Walks.router (Q := fun r w' => w₁ = w' ∧ r = w₁.routers k) k ⟨rfl, rfl⟩).bind ?_
  rintro _ _ _ ⟨rfl, rfl⟩
  refine (Walks.ofExcept (Q := fun wire w' => w₁ = w' ∧ parseWire raw (w.routers k).maxBytes = .ok wire) _ fun wire e => ⟨rfl, ?_⟩).bind ?_
  · rwa [same] at e
  rintro wire _ _ ⟨rfl, parsed⟩
  refine (Walks.ofExcept (Q := fun id w' => w₁ = w' ∧ requestId wire = .ok id) _ fun id e => ⟨rfl, e⟩).bind ?_
  rintro id _ _ ⟨rfl, named⟩
  exact .pure _ ⟨⟨t, window, count, same⟩, ‹_›, parsed, named⟩

/-- If the input is a subscribe, its response fits. -/
def SessionRouter.Fits (r : SessionRouter η) (numbers : NumberText) (label : String) (raw : Raw) : Prop :=
  isChannel label = some .control → ∀ wire id, parseWire raw r.maxBytes = .ok wire → requestId wire = .ok (some id) →
    r.Announces numbers wire id

theorem dispatch_walks (permits : Permits allow env) (cached : allow.cache) (k : Nat) (channel : Channel) (wire : Wire)
    (id : Option String) (w : World η) (sane : w.Sane) (isOpen : (w.routers k).closed = false)
    (fits : allow.large ∨ (channel = .control → ∀ i, id = some i → (w.routers k).Announces w.numbers wire i)) :
    Walks allow (some k) (dispatch env k channel wire id) w fun _ _ => True :=
  .ite (fun control => control_walks permits cached k wire id w sane isOpen (fits.imp_right fun h => h control))
    fun _ => publish_walks permits k channel wire w sane

theorem receive_ends (permits : Permits allow env) (cached : allow.cache) (k : Nat) (label : String) (raw : Raw) (w : World η)
    (sane : w.Sane) (fits : allow.large ∨ (w.routers k).Fits w.numbers label raw) :
    wp (receive env k label raw) (fun _ w' => Trip allow none w w') (fun _ w' => Trip allow none w w' ∧ Breaks allow w) w := by
  rw [receive, wp_bind, wp_router, wp_when]
  refine ⟨fun isOpen => ?_, fun _ => .refl w⟩
  have isOpen : (w.routers k).closed = false := by simpa using isOpen
  rw [wp_bind, wp_tryCatch, wp_bind]
  have parsed : Walks allow none (parse env k label raw) w _ := parse_walks k label raw w
  refine wp_mono parsed ?_ fun _ w₁ trip => ?_
  · rintro ⟨channel, wire, id⟩ w₁ ⟨trip, ⟨t, window, count, same⟩, isChannel, parsed, named⟩
    have sane₁ := trip.sane sane
    have isOpen₁ : (w₁.routers k).closed = false := by rw [same]; exact isOpen
    have fits : allow.large ∨ (channel = .control → ∀ i, id = some i → (w₁.routers k).Announces w₁.numbers wire i) := by
      refine fits.imp_right ?_
      rintro fits rfl i rfl
      have := fits isChannel wire i parsed named
      rw [same, trip.goes.numbers]
      exact this
    have rest : Walks allow (some k) (do dispatch env k channel wire id; flush env k) w₁ fun _ _ => True :=
      (dispatch_walks permits cached k channel wire id w₁ sane₁ isOpen₁ fits).bind fun _ w₂ trip₂ _ =>
        (flush_walks permits k).walks (trip₂.sane sane₁)
    rw [wp_pure]
    rw [wp_tryCatch]
    exact wp_mono rest (fun _ _ h => trip.trans h.1) fun _ w₂ trip₂ =>
      errorWith_after permits (flush_walks permits k) (trip.loosen.trans trip₂) sane id
  · rw [wp_bind]
    refine wp_mono ((error_ends permits k none).after trip sane) (fun _ _ h => ?_) fun _ _ h => h
    rw [wp_pure]
    exact h

/-! ## Construction -/

theorem addEntries_named (topics : List TopicBinding) (bindings : List (RouterBinding η))
    {entries entries' : Table String (RouterBinding η)} (added : addEntries topics bindings entries = .ok entries')
    (named : ∀ n e, entries.get? n = some e → e.binding.publicName = n) (n : String) (e : RouterBinding η)
    (found : entries'.get? n = some e) : e.binding.publicName = n := by
  induction bindings generalizing entries with
  | nil =>
    obtain rfl := Except.ok.inj added
    exact named n e found
  | cons entry rest ih =>
    rw [addEntries] at added
    split at added
    · cases added
    split at added
    · cases added
    · refine ih added fun n e found => ?_
      rw [Table.get?_set] at found
      split at found
      · next name =>
        obtain rfl := Option.some.inj found
        exact name.symm
      · exact named n e found

theorem limits_pos {options : RouterOptions η} {limits : Limits} (h : options.limits = .ok limits) :
    0 < limits.maxRequests ∧ 0 < limits.maxHandles := by
  unfold RouterOptions.limits at h
  split at h
  · next handles requests _ _ =>
    obtain rfl := Except.ok.inj h
    exact ⟨(positiveLimit_pos requests).1, (positiveLimit_pos handles).1⟩
  · cases h

/-- The options of a queue are the limits it was created with. -/
theorem create_options {maxStreams maxBytes maxMessageBytes : Nat} {q : DeliveryQueue Bytes}
    (h : DeliveryQueue.create (some (maxStreams : ℚ)) (some (maxBytes : ℚ)) (some (maxMessageBytes : ℚ)) = .ok q) :
    q = ⟨⟨maxStreams, maxBytes, maxMessageBytes⟩, .empty, 0, 0⟩ ∧ maxMessageBytes ≤ maxBytes := by
  unfold DeliveryQueue.create at h
  split at h
  · next streams bytes messageBytes =>
    split at h
    · cases h
    · next fits =>
      obtain rfl := Except.ok.inj h
      rw [eq_of_positiveLimit streams, eq_of_positiveLimit bytes, eq_of_positiveLimit messageBytes] at *
      exact ⟨rfl, not_lt.1 fits⟩
  · cases h

/-- The fields of a new router. -/
theorem router_made {options : RouterOptions η} {r : SessionRouter η} (made : options.router = .ok r) :
    ∃ limits entries, options.limits = .ok limits ∧ addEntries options.topics options.bindings .empty = .ok entries ∧
      options.maxBytes ≤ options.maxPeerQueueBytes ∧ r = { (.vacant : SessionRouter η) with
        epoch := options.epoch
        limits := limits
        maxBytes := options.maxBytes
        entries := entries
        queue := ⟨⟨limits.maxHandles + 1, options.maxPeerQueueBytes, options.maxBytes⟩,
          Table.empty.set "control" ⟨.reliable, limits.maxRequests, [], false⟩, 0, 0⟩
        cache := .create limits.maxRequests limits.requestTtlMs options.maxPeerQueueBytes
        video := options.slots.map fun slots => ⟨.empty, slots⟩ } := by
  obtain ⟨limits, hlimits, made⟩ := exists_of_bind made
  split at made
  · obtain ⟨_, thrown, -⟩ := exists_of_bind made
    cases thrown
  obtain ⟨entries, hentries, made⟩ := exists_of_bind made
  obtain ⟨queue, hqueue, made⟩ := exists_of_bind made
  obtain ⟨rfl, fits⟩ := create_options hqueue
  split at made
  · cases made
  next queue' registered =>
  obtain rfl := Except.ok.inj made
  obtain ⟨-, rfl⟩ := of_wp_ok (DeliveryQueue.register_spec _ _ _ _) registered
  exact ⟨limits, entries, hlimits, hentries, fits, rfl⟩

/-- The state a new router is given. -/
theorem router_fresh {options : RouterOptions η} {r : SessionRouter η} (made : options.router = .ok r) (sessionId : String)
    (t : ℚ) : ({ r with sessionId := sessionId, lastTime := t, closed := false } : SessionRouter η).Fresh ∧
      r.epoch = options.epoch := by
  obtain ⟨limits, entries, hlimits, hentries, -, rfl⟩ := router_made made
  have named := addEntries_named options.topics options.bindings hentries (by simp)
  refine ⟨⟨rfl, named, rfl, rfl, rfl, rfl, ⟨options.maxPeerQueueBytes, rfl⟩, limits_pos hlimits, fun v video => ?_, rfl, rfl,
    rfl, rfl⟩, rfl⟩
  obtain ⟨slots, -, rfl⟩ := Option.map_eq_some_iff.1 video
  rfl

/-- What a new router takes over from its options. -/
theorem router_spec {options : RouterOptions η} {r : SessionRouter η} (made : options.router = .ok r) :
    r.maxBytes = options.maxBytes ∧ r.video = options.slots.map (fun slots => ⟨.empty, slots⟩) ∧
      r.cache = .create r.limits.maxRequests r.limits.requestTtlMs options.maxPeerQueueBytes ∧ 0 < r.limits.maxRequests := by
  obtain ⟨limits, entries, hlimits, -, -, rfl⟩ := router_made made
  exact ⟨rfl, rfl, rfl, (limits_pos hlimits).1⟩

/-- Router number `born` is as its options say. -/
theorem construct_spec (options : RouterOptions η) (w : World η) :
    wp (construct env options)
      (fun _ w' => w'.born = w.born + 1 ∧ ∃ r sessionId t, options.router = .ok r ∧
        w'.routers w.born = { r with sessionId := sessionId, lastTime := t, closed := false })
      (fun _ _ => True) w := by
  simp only [construct, wp_bind, wp_get, wp_ofExcept, wp_ask]
  refine ⟨fun r made => ?_, fun _ _ => trivial⟩
  split
  · trivial
  · next value _ =>
    simp only [wp_bind, wp_throwIf, wp_onGuard, wp_modify, World.setRouter_self]
    refine ⟨fun _ => trivial, fun _ => wp_mono (wp_trivial _ _) (fun sessionId _ _ => ?_) fun _ _ _ => trivial⟩
    exact ⟨trivial, r, sessionId, value, made, rfl⟩

theorem construct_walks (makes : allow.makes) (options : RouterOptions η) : Roams allow (construct env options) := by
  intro w sane
  simp only [Walks, construct, wp_bind, wp_get, wp_ofExcept, wp_ask]
  refine ⟨fun r made => ?_, fun _ _ => .refl w⟩
  split
  · exact .ticked w _
  · next value _ =>
    simp only [wp_bind, wp_throwIf, wp_onGuard, wp_modify]
    refine ⟨fun _ => .ticked w _, fun _ => wp_mono (openSession_spec options.epoch _) ?_ fun _ _ e => ?_⟩
    · rintro sessionId _ ⟨issued, isOpen, capacity, rfl⟩
      obtain ⟨fresh, epoch⟩ := router_fresh made sessionId value
      have step : Step allow { w with tick := w.tick + 1 } _ := .constructed _ fresh isOpen capacity issued makes
      rw [← epoch]
      refine ⟨(Trip.ticked w _).trans (.step step (fun _ h => World.setRouter_ne _ _ h) (fun _ _ => .inr ?_) rfl), trivial⟩
      refine ⟨⟨.reliable, r.limits.maxRequests, [], false⟩, ?_, rfl⟩
      rw [World.setRouter_self, fresh.streams, Table.get?_set_self]
    · rw [e]
      exact .ticked w _

/-! ## Inputs -/

theorem keyframe_walks (permits : Permits allow env) (k : Nat) (track : String) : Roams allow (keyframe env k track) := by
  intro w sane
  refine Walks.bind (Q := fun _ w' => w = w') ?_ ?_
  · rw [Walks, wp_bindingOf]
    exact ⟨.refl w, rfl⟩
  rintro entry _ _ rfl
  split
  · exact .pure () trivial
  refine Walks.when (fun _ => ?_) fun _ => trivial
  refine (source_walks none track w).bind ?_
  rintro _ _ _ ⟨rfl, -⟩
  exact onSource_walks track _ permits (fun port P w h => h.requestKeyframe) w sane

theorem closeSources_walks (permits : Permits allow env) (tracks : List String) : Roams allow (closeSources env tracks) := by
  induction tracks with
  | nil => exact fun w _ => .pure () trivial
  | cons track tracks ih =>
    intro w sane
    refine (onSource_walks track _ permits (fun port P w h => h.close) w sane).bind fun _ w₁ trip _ => ?_
    exact ih w₁ (trip.sane sane)

theorem mediaClose_goes (permits : Permits allow env) (w : World η) (sane : w.Sane) :
    wp (mediaClose env) (fun _ w' => Goes allow w w') (fun _ w' => Goes allow w w') w := by
  rw [mediaClose, wp_bind, wp_modify, wp_bind, wp_get]
  have step : Goes allow w { w with media := { w.media with closed := true } } := .single .mediaClosed
  exact wp_mono (closeSources_walks permits _ _ (step.sane sane)) (fun _ _ h => step.trans h.1.goes)
    fun _ _ h => step.trans h.goes

/-- What an input must satisfy if responses to subscribes are to fit. -/
def Input.Fits (w : World η) : Input η → Prop
  | .receive k label raw => (w.routers k).Fits w.numbers label raw
  | _ => True

theorem input_trips (permits : Permits allow env) (cached : allow.cache) (i : Input η)
    (hooks : ∀ reaction, i = .outside reaction → allow.wild ∨ reaction.Mild) (w : World η) (sane : w.Sane)
    (makes : allow.makes ∨ ∀ options, i ≠ .construct options) (fits : allow.large ∨ i.Fits w) (kept : i ≠ .mediaClose) :
    wp (i.code env) (fun _ w' => Trip allow none w w') (fun _ w' => Trip allow none w w') w := by
  have walked : ∀ {m : Code η Unit}, Walks allow none m w (fun _ _ => True) →
      wp m (fun _ w' => Trip allow none w w') (fun _ w' => Trip allow none w w') w :=
    fun h => wp_mono h (fun _ _ h => h.1) fun _ _ h => h
  cases i with
  | construct options => exact walked (construct_walks (makes.resolve_right fun others => others options rfl) options w sane)
  | receive k label raw => exact wp_mono (receive_ends permits cached k label raw w sane fits) (fun _ _ h => h) fun _ _ h => h.1
  | flush k => exact walked (flush_walks permits k w sane)
  | sample k stream native => exact walked ((sample_ends permits k stream native).roams w sane)
  | close k => exact wp_mono (close_hooked permits k w sane) (fun _ _ h => h.1.trip) fun _ _ h => h.1.1.trip
  | outside reaction =>
    rw [Input.code, wp_bind]
    exact wp_mono (react_hooked permits reaction (hooks reaction rfl) w sane) (fun _ _ h => h.trip) fun _ _ h => h.trip
  | media track event =>
    simp only [Input.code]
    split
    · exact walked (onSource_walks track _ permits (fun port P w h => h.step event) w sane)
    · exact .refl w
  | keyframe k track => exact walked (keyframe_walks permits k track w sane)
  | mediaClose => exact absurd rfl kept

theorem input_goes (permits : Permits allow env) (cached : allow.cache) (i : Input η)
    (hooks : ∀ reaction, i = .outside reaction → allow.wild ∨ reaction.Mild) (w : World η) (sane : w.Sane)
    (makes : allow.makes ∨ ∀ options, i ≠ .construct options) (fits : allow.large ∨ i.Fits w) :
    wp (i.code env) (fun _ w' => Goes allow w w') (fun _ w' => Goes allow w w') w := by
  cases i with
  | mediaClose => exact mediaClose_goes permits w sane
  | _ =>
    exact wp_mono (input_trips permits cached _ hooks w sane makes fits (by simp)) (fun _ _ h => h.goes) fun _ _ h => h.goes

/-! ## Routers are made by construction only -/

/-- Everything may happen, but no router is constructed. -/
def Allow.barren : Allow := ⟨True, True, True, True, True, False⟩

theorem permits_barren (env : Env η) : Permits .barren env := ⟨.inl trivial, .inl trivial, .inl trivial⟩

theorem Goes.barren {w w' : World η} (g : Goes .barren w w') : w'.born = w.born := by
  induction g with
  | refl => rfl
  | tail _ s ih =>
    cases s with
    | constructed r fresh isOpen capacity named makes => exact makes.elim
    | _ => exact ih

theorem close_barren (k : Nat) (w : World η) (sane : w.Sane) :
    wp (close env k) (fun _ w' => w'.born = w.born) (fun _ w' => w'.born = w.born) w :=
  wp_mono (close_hooked (permits_barren env) k w sane) (fun _ _ h => h.1.trip.goes.barren) fun _ _ h => h.1.1.trip.goes.barren

/-- No input but a `construct` makes a router. -/
theorem input_barren (i : Input η) (others : ∀ options, i ≠ .construct options) (w : World η) (sane : w.Sane) :
    wp (i.code env) (fun _ w' => w'.born = w.born) (fun _ w' => w'.born = w.born) w :=
  wp_mono (input_goes (permits_barren env) trivial i (fun _ _ => .inl trivial) w sane (.inr others) (.inl trivial))
    (fun _ _ h => h.barren) fun _ _ h => h.barren

/-! ## Runs -/

/-- What the outside does during an input is allowed. -/
structure Permitted (allow : Allow) (i : Env η × Input η) : Prop where
  permits : Permits allow i.1
  hooks : ∀ reaction, i.2 = .outside reaction → allow.wild ∨ reaction.Mild
  makes : allow.makes

theorem permitted_any (i : Env η × Input η) : Permitted .any i := ⟨permits_any i.1, fun _ _ => .inl trivial, trivial⟩

theorem step_goes {i : Env η × Input η} (permitted : Permitted allow i) (cached : allow.cache) {w : World η} (sane : w.Sane)
    (fits : allow.large ∨ i.2.Fits w) : Goes allow w (w.step i) :=
  after_of_wp (input_goes permitted.permits cached i.2 permitted.hooks w sane (.inl permitted.makes) fits)

theorem run_goes (cached : allow.cache) {w : World η} (sane : w.Sane) {inputs : List (Env η × Input η)}
    (permitted : ∀ i ∈ inputs, Permitted allow i)
    (fits : allow.large ∨ Along World.step (fun w i => i.2.Fits w) w inputs) : Goes allow w (w.run inputs) := by
  induction inputs generalizing w with
  | nil => exact .refl
  | cons i inputs ih =>
    have first : Goes allow w (w.step i) :=
      step_goes (permitted i List.mem_cons_self) cached sane (fits.imp_right fun h => h.1)
    exact first.trans (ih (first.sane sane) (fun j hj => permitted j (List.mem_cons_of_mem _ hj)) (fits.imp_right fun h => h.2))

theorem run_goes_any {w : World η} (sane : w.Sane) (inputs : List (Env η × Input η)) : Goes .any w (w.run inputs) :=
  run_goes trivial sane (fun i _ => permitted_any i) (.inl trivial)

/-- What steps of sane bridges keep holds after any number of steps. -/
theorem Goes.inv {P : World η → Prop} (keep : ∀ w w', w.Sane → P w → Step allow w w' → P w') {w w' : World η}
    (g : Goes allow w w') (sane : w.Sane) (h : P w) : P w' := by
  induction g with
  | refl => exact h
  | tail before s ih => exact keep _ _ (Goes.sane before sane) ih s

theorem start_sane (numbers : NumberText) {guard : CommandGuard} (media : MediaService) (unused : guard.handles = .empty) :
    (World.start numbers guard media : World η).Sane := by
  have vacant : (SessionRouter.vacant : SessionRouter η).Sane := by
    refine ⟨?_, ?_, ?_, ?_, ?_, ?_, rfl, RequestCache.sound_create 0 0 0, ?_⟩ <;>
      simp [SessionRouter.vacant, RequestCache.create]
  refine ⟨fun _ => vacant, ?_, ?_, ?_, fun _ _ => rfl, fun _ _ => ⟨rfl, rfl⟩⟩
  · simp [World.start, unused]
  · simp [World.start, SessionRouter.vacant]
  · simp [World.start, SessionRouter.vacant]

end RosBridge.Router
