import RosBridge.App.Catalog
import RosBridge.Router.Admission
import RosBridge.Router.Leases
/-!
# Writers of one output

A configuration gives the bindings of one ROS output the same guard, routers publish
through bindings of the configuration only, and a guarded publication needs a lease on the
output. So two sessions write to a guarded output, under whatever names, only with an arm
of the second one in between that found every other session's lease over.
-/

namespace RosBridge.App

open Lib Prog Session Config Relation CommandGuard Router

variable {η : Type} {allow : Allow} {w w' : World η} {k : Nat} {topics : List TopicBinding}

/-! ## The outputs of a configuration -/

/-- The outputs seen so far, by their ROS names. -/
def Seen (seen : List TopicBinding) (outputs : Table String TopicBinding) : Prop :=
  ∀ b ∈ seen, b.direction = .webToRos → ∃ previous, outputs.get? b.rosTopic = some previous ∧ outputContract previous = outputContract b

theorem checkOutputsLoop_agree {topics : List TopicBinding} {outputs : Table String TopicBinding} {seen : List TopicBinding}
    (checked : checkOutputsLoop topics outputs = .ok ()) (known : Seen seen outputs) :
    ∃ outputs', Seen (seen ++ topics) outputs' := by
  induction topics generalizing outputs seen with
  | nil => exact ⟨outputs, by rwa [List.append_nil]⟩
  | cons topic rest ih =>
    rw [checkOutputsLoop] at checked
    rw [List.append_cons]
    split at checked
    · next other =>
      refine ih checked fun b hb outward => ?_
      rcases List.mem_append.1 hb with old | new
      · exact known b old outward
      · exact absurd (List.mem_singleton.1 new ▸ outward) other
    · split at checked
      · cases checked
      · next agree =>
        refine ih checked fun b hb outward => ?_
        rw [Table.get?_set]
        split
        · next same =>
          -- A binding of the same output: this one, or one that agrees with it.
          refine ⟨topic, rfl, ?_⟩
          rcases List.mem_append.1 hb with old | new
          · obtain ⟨previous, found, contract⟩ := known b old outward
            rw [same] at found
            rw [← contract]
            by_contra differ
            exact agree (by simp [found, Ne.symm differ])
          · rw [List.mem_singleton.1 new]
        · next other =>
          rcases List.mem_append.1 hb with old | new
          · exact known b old outward
          · exact absurd (congrArg _ (List.mem_singleton.1 new)) other

/-- Two bindings of one output have the same contract. -/
theorem checkOutputs_agree (checked : checkOutputs topics = .ok ()) {a b : TopicBinding} (ha : a ∈ topics) (hb : b ∈ topics)
    (outwardA : a.direction = .webToRos) (outwardB : b.direction = .webToRos) (same : a.rosTopic = b.rosTopic) :
    outputContract a = outputContract b := by
  obtain ⟨outputs, seen⟩ := checkOutputsLoop_agree checked (show Seen [] .empty by simp [Seen])
  obtain ⟨p, foundA, contractA⟩ := seen a (by simpa using ha) outwardA
  obtain ⟨p', foundB, contractB⟩ := seen b (by simpa using hb) outwardB
  rw [same, foundB] at foundA
  obtain rfl := Option.some.inj foundA
  exact contractA.symm.trans contractB

/-- An accepted configuration has passed `checkOutputs`. -/
theorem outputs_checked (yaml : String → Option Json) (source : String) (options : ConfigOptions) :
    Yields (fun config => checkOutputs config.topics = .ok ()) (parseBridgeConfig yaml source options) := by
  unfold parseBridgeConfig
  refine .bind fun maxBytes _ => .bind fun maxTopics _ => .bind fun document _ => .bind fun map _ => ?_
  split
  · refine .ite (fun _ => .bind fun _ h => by cases h) fun _ => ?_
    refine .bind fun robotId _ => .bind fun limits _ => .bind fun entries _ => ?_
    exact .ite (fun _ => .bind fun _ h => by cases h) fun _ => .bind fun topics _ => .bind fun _ checked => .pure checked
  · exact .throw _

/-! ## The bindings of a router -/

/-- Router `k` is the one that one of the inputs constructs, for these topics. -/
def MadeFor (topics : List TopicBinding) (w : World η) (inputs : List (Env η × Input η)) (k : Nat) : Prop :=
  ∃ earlier env options later, inputs = earlier ++ (env, .construct options) :: later ∧ options.topics = topics ∧
    (w.run earlier).born = k ∧ ((construct env options).exec (w.run earlier)).1 = .ok ()

theorem addEntries_mem (topics : List TopicBinding) (bindings : List (RouterBinding η))
    {entries entries' : Table String (RouterBinding η)} (added : addEntries topics bindings entries = .ok entries')
    (known : ∀ n e, entries.get? n = some e → e.binding ∈ topics) (n : String) (e : RouterBinding η)
    (found : entries'.get? n = some e) : e.binding ∈ topics := by
  induction bindings generalizing entries with
  | nil =>
    obtain rfl := Except.ok.inj added
    exact known n e found
  | cons entry rest ih =>
    rw [addEntries] at added
    split at added
    · cases added
    next fresh =>
    split at added
    · cases added
    · refine ih added fun n e found => ?_
      rw [Table.get?_set] at found
      split at found
      · obtain rfl := Option.some.inj found
        exact not_not.1 fun unknown => fresh (.inl unknown)
      · exact known n e found

/-- The bindings of a router are of the topics it was made for. -/
theorem MadeFor.entries {inputs : List (Env η × Input η)} (made : MadeFor topics w inputs k) (sane : w.Sane) {n : String}
    {e : RouterBinding η} (found : ((w.run inputs).routers k).entries.get? n = some e) : e.binding ∈ topics := by
  obtain ⟨earlier, env, options, later, rfl, rfl, rfl, ok⟩ := made
  have sane₁ : (w.run earlier).Sane := (run_goes_any sane earlier).sane sane
  have goes : Goes .any (w.run earlier) ((w.run earlier).step (env, .construct options)) :=
    step_goes (permitted_any _) trivial sane₁ (.inl trivial)
  have exec : (construct env options).exec (w.run earlier) = (.ok (), (w.run earlier).step (env, .construct options)) := Prod.ext ok rfl
  obtain ⟨born, r, sessionId, t, router, here⟩ := of_wp_ok (construct_spec options _) exec
  obtain ⟨limits, entries, -, added, -, rfl⟩ := router_made router
  have run : w.run (earlier ++ (env, .construct options) :: later) =
      World.run ((w.run earlier).step (env, .construct options)) later := by
    rw [World.run, List.foldl_append]
    rfl
  rw [run, (Goes.kept (run_goes_any (goes.sane sane₁) later) (by omega)).entries, here] at found
  exact addEntries_mem options.topics options.bindings added (by simp) n e found

/-- Publishers are of outputs. -/
def Outward (w : World η) : Prop :=
  ∀ k h p, (w.routers k).publishers.get? h = some p → p.entry.binding.direction = .webToRos

theorem move_outward {numbers : NumberText} {media : MediaService} {r r' : SessionRouter η} (m : Move numbers allow media r r')
    (outward : ∀ h p, r.publishers.get? h = some p → p.entry.binding.direction = .webToRos) {h : String} {p : Publisher η}
    (found : r'.publishers.get? h = some p) : p.entry.binding.direction = .webToRos := by
  cases m with
  | control bytes _ control => exact outward h p (control.same.2.1 ▸ found)
  | advertised entry isOpen here direction unguarded room =>
    simp only [SessionRouter.advertise, Table.get?_set] at found
    split at found
    · exact Option.some.inj found ▸ direction
    · exact outward h p found
  | unadvertised handle q here unguarded =>
    simp only [SessionRouter.unadvertise, Table.get?_erase] at found
    split at found
    · cases found
    · exact outward h p found
  | admitted handle entry seq t now due =>
    have found : (r.publishers.modify handle _).get? h = some p := found
    rw [Table.get?_modify] at found
    split at found
    · next e =>
      obtain ⟨p₀, h₀, rfl⟩ := Option.map_eq_some_iff.1 found
      exact outward handle p₀ (e ▸ h₀)
    · exact outward h p found
  | _ => exact outward h p found

theorem step_outward (s : Step allow w w') (outward : Outward w) : Outward w' := by
  intro k h p found
  rcases s.turn k with same | turn | born
  · exact outward k h p (same ▸ found)
  · generalize w'.routers k = r at turn found
    cases turn with
    | move _ move => exact move_outward move (outward k) found
    | advertised handle entry n here direction guarded issued bound room =>
      simp only [SessionRouter.advertise, Table.get?_set] at found
      split at found
      · exact Option.some.inj found ▸ direction
      · exact outward k h p found
    | unadvertised handle q here guarded =>
      simp only [SessionRouter.unadvertise, Table.get?_erase] at found
      split at found
      · cases found
      · exact outward k h p found
    | subscribed entry requestId _ isOpen here free room announced => exact outward k h p (announced.same.2.1 ▸ found)
    | finished => simp [SessionRouter.finished] at found
    | _ => exact outward k h p found
  · simp [born.fresh.publishers] at found

/-! ## Publications -/

/-- Router `k` published through one of its bindings, which is of an output. -/
def Outputs (w : World η) : Prop :=
  ∀ k sessionId binding request guard, .published k sessionId binding request guard ∈ w.history → k < w.born ∧
    binding.direction = .webToRos ∧ ∃ e, (w.routers k).entries.get? binding.publicName = some e ∧ e.binding = binding

theorem step_outputs (s : Step allow w w') (sane : w.Sane) (outward : Outward w) (h : Outputs w) : Outputs w' := by
  intro k sessionId binding request guard there
  have old : .published k sessionId binding request guard ∈ w.history → k < w'.born ∧
      binding.direction = .webToRos ∧ ∃ e, (w'.routers k).entries.get? binding.publicName = some e ∧ e.binding = binding := by
    intro there
    obtain ⟨born, direction, e, found, same⟩ := h k sessionId binding request guard there
    exact ⟨born.trans_le s.born, direction, e, (s.kept born).entries ▸ found, same⟩
  rcases s.publishing with ⟨notes, history, silent⟩ | ⟨j, handle, p, q, isOpen, found, -, history⟩
  · rw [history] at there
    exact old ((List.mem_append.1 there).resolve_right fun new => silent _ new _ _ _ _ _ rfl)
  · rw [history] at there
    rcases List.mem_append.1 there with there | there
    · exact old there
    · cases List.mem_singleton.1 there
      have born := sane.born isOpen
      refine ⟨born.trans_le s.born, outward k handle p found, p.entry, ?_, rfl⟩
      rw [(s.kept born).entries]
      exact ((sane.routers k).advertised handle p found).1

/-! ## Runs -/

/-- Publishers and publications are of outputs. -/
structure Writing (w : World η) : Prop where
  outward : Outward w
  outputs : Outputs w

theorem run_writing {prefixId : String} {maxSessions maxHandles leaseMs clock : Session.Num} {guard : CommandGuard}
    (created : create prefixId maxSessions maxHandles leaseMs clock = .ok guard) (numbers : NumberText) (media : MediaService)
    (inputs : List (Env η × Input η)) : Writing ((World.start numbers guard media).run inputs) := by
  have sane : (World.start numbers guard media : World η).Sane := start_sane numbers media (create_handles created)
  refine (run_goes_any sane inputs).inv (P := Writing) (fun w w' sane h s => ?_) sane ⟨?_, ?_⟩
  · exact ⟨step_outward s h.outward, step_outputs s sane h.outward h.outputs⟩
  · simp [Outward, World.start, SessionRouter.vacant]
  · simp [Outputs, World.start]

/-- The last publication of a history. -/
theorem published_at {history pre post : List Note} {n : Note} (logged : Logged Published history) (split : history = pre ++ n :: post) :
    Published pre n := logged pre n post split

/-- In every run of a bridge built from an accepted configuration: of two publications on
one ROS output, if one is guarded so is the other; and if two sessions make them, then
unless a hook can have ended one of their leases at the call the second session has armed,
between the validation of the first one's ticket and its own publication, when no other
session held an unexpired lease on the output. -/
theorem writers_separated (yaml : String → Option Json) (source : String) (settings : ConfigOptions) {config : BridgeConfig}
    (parsed : parseBridgeConfig yaml source settings = .ok config) {prefixId : String}
    {maxSessions maxHandles leaseMs clock : Session.Num} {guard : CommandGuard}
    (created : create prefixId maxSessions maxHandles leaseMs clock = .ok guard) (numbers : NumberText) (media : MediaService)
    (inputs : List (Env η × Input η)) {pre mid post : List Note} {k₁ k₂ : Nat} {s₁ s₂ : String} {b₁ b₂ : TopicBinding}
    {q₁ q₂ : Option CommandRequest} {g₁ g₂ : CommandGuard}
    (made₁ : MadeFor config.topics (World.start numbers guard media) inputs k₁)
    (made₂ : MadeFor config.topics (World.start numbers guard media) inputs k₂)
    (history : ((World.start numbers guard media).run inputs).history =
      pre ++ .published k₁ s₁ b₁ q₁ g₁ :: (mid ++ .published k₂ s₂ b₂ q₂ g₂ :: post))
    (same : b₁.rosTopic = b₂.rosTopic) :
    b₁.commandGuard = b₂.commandGuard ∧ (b₁.commandGuard.isSome → ∃ r₁ st₁ lease₁ after₁ r₂ st₂ lease₂ after₂,
      q₁ = some r₁ ∧ r₁.sessionId = s₁ ∧ Ticketed pre r₁ st₁ lease₁ after₁ ∧
      q₂ = some r₂ ∧ r₂.sessionId = s₂ ∧ Ticketed (pre ++ .published k₁ s₁ b₁ q₁ g₁ :: mid) r₂ st₂ lease₂ after₂ ∧
      (s₁ ≠ s₂ → Intact r₁ lease₁ after₁ → Intact r₂ lease₂ after₂ →
        ∃ h t g, .armed s₂ h t g ∈ after₁ ++ mid ∧ Unleased g b₁.rosTopic s₂ t)) := by
  have sane : (World.start numbers guard media : World η).Sane := start_sane numbers media (create_handles created)
  have writing := run_writing created numbers media inputs
  have logged := (run_leased created numbers media inputs).published
  obtain ⟨-, outward₁, e₁, found₁, rfl⟩ := writing.outputs k₁ s₁ b₁ q₁ g₁ (by simp [history])
  obtain ⟨-, outward₂, e₂, found₂, rfl⟩ := writing.outputs k₂ s₂ b₂ q₂ g₂ (by simp [history])
  have contract := checkOutputs_agree (outputs_checked yaml source settings config parsed) (made₁.entries sane found₁)
    (made₂.entries sane found₂) outward₁ outward₂ same
  have guards : e₁.binding.commandGuard = e₂.binding.commandGuard := congrArg OutputContract.commandGuard contract
  refine ⟨guards, fun guarded => ?_⟩
  obtain ⟨first, -⟩ := published_at logged history
  have later : ((World.start numbers guard media).run inputs).history =
      (pre ++ .published k₁ s₁ e₁.binding q₁ g₁ :: mid) ++ .published k₂ s₂ e₂.binding q₂ g₂ :: post := by
    rw [history, List.append_assoc, List.cons_append]
  obtain ⟨second, known⟩ := published_at logged later
  obtain ⟨r₁, st₁, lease₁, after₁, rfl, session₁, ticket₁, held₁⟩ := first guarded
  obtain ⟨r₂, st₂, lease₂, after₂, rfl, session₂, ticket₂, held₂⟩ := second (guards ▸ guarded)
  refine ⟨r₁, st₁, lease₁, after₁, r₂, st₂, lease₂, after₂, rfl, session₁, ticket₁, rfl, session₂, ticket₂,
    fun other intact₁ intact₂ => ?_⟩
  obtain ⟨earlier, t, g, split, valid⟩ := ticket₁.validated
  obtain ⟨st, lease, valid', succeeded⟩ := known earlier r₁ t g (after₁ ++ .published k₁ s₁ e₁.binding (some r₁) g₁ :: mid) (by simp [split])
  obtain rfl : st = st₁ := Option.some.inj (valid'.handle.symm.trans valid.handle)
  obtain ⟨st', held, owner, topic, leased⟩ := (held₂ intact₂).2.held
  have outcome := succeeded r₂.handle st' held (by simp [leased])
    (topic.trans (same.symm.trans (held₁ intact₁).1.symm)) (by rw [owner, session₁, session₂]; exact other.symm)
  obtain ⟨t', g', there, unleased⟩ := outcome
  rw [owner, session₂] at there unleased
  rw [(held₁ intact₁).1] at unleased
  exact ⟨r₂.handle, t', g', by simpa using there, unleased⟩

/-! ## Two operators -/

/-- A document with a guarded output. -/
def rivalDocument : Json := .object [
  ("version", .number (some 1)), ("robot_id", .string "r"),
  ("limits", numbersOf [("max_peers", 2), ("max_message_bytes", 1000), ("max_peer_queue_bytes", 20000),
    ("max_channel_buffered_bytes", 1000)]),
  ("topics", .object [("/cmd", .object [
    ("ros_type", .string "std_msgs/msg/String"), ("direction", .string "web_to_ros"),
    ("ros_qos", .object [("reliability", .string "reliable"), ("durability", .string "volatile"),
      ("history", .string "keep_last"), ("depth", .number (some 1))]),
    ("delivery", .string "reliable"), ("max_rate_hz", .number (some 10)),
    ("queue", .object [("policy", .string "fifo"), ("max_messages", .number (some 4))]),
    ("access", .object [("publish_scope", .string "operator"), ("exclusive_writer", .bool true)]),
    ("command_guard", .object [("required", .bool true), ("lease_ms", .number (some 100))])])])]

/-- What it is accepted as. -/
def rivalConfig : BridgeConfig := { smallConfig 20000 (Nat.le_of_ble_eq_true rfl) with topics := [guardedTopic] }

theorem rivalDocument_accepted :
    parseBridgeConfig (fun _ => some rivalDocument) "" smallSettings = .ok rivalConfig := by decide +kernel

/-- A note of a publication of another session on a topic. -/
def Note.rivals (sessionId topic : String) : Note → Bool
  | .published _ s b _ _ => s != sessionId && b.rosTopic == topic
  | _ => false

/-- Two sessions publish on one guarded output. -/
def rivalry : List Note → Bool
  | [] => false
  | .published _ s b _ _ :: rest => b.commandGuard.isSome && rest.any (Note.rivals s b.rosTopic) || rivalry rest
  | _ :: rest => rivalry rest

def Rivalry (history : List Note) : Prop :=
  ∃ pre k₁ s₁ b₁ q₁ g₁ mid k₂ s₂ b₂ q₂ g₂ post,
    history = pre ++ .published k₁ s₁ b₁ q₁ g₁ :: (mid ++ .published k₂ s₂ b₂ q₂ g₂ :: post) ∧ s₁ ≠ s₂ ∧ b₁.rosTopic = b₂.rosTopic ∧
      b₁.commandGuard.isSome

theorem rivalry_sound {history : List Note} (h : rivalry history = true) : Rivalry history := by
  induction history with
  | nil => cases h
  | cons n rest ih =>
    have deeper : rivalry rest = true → Rivalry (n :: rest) := fun h => by
      obtain ⟨pre, k₁, s₁, b₁, q₁, g₁, mid, k₂, s₂, b₂, q₂, g₂, post, rfl, others⟩ := ih h
      exact ⟨n :: pre, k₁, s₁, b₁, q₁, g₁, mid, k₂, s₂, b₂, q₂, g₂, post, rfl, others⟩
    cases n with
    | published k s b q g =>
      rcases Bool.or_eq_true_iff.1 h with here | later
      · obtain ⟨guarded, rival⟩ := Bool.and_eq_true_iff.1 here
        obtain ⟨n', there, is⟩ := List.any_eq_true.1 rival
        obtain ⟨mid, post, rfl⟩ := List.append_of_mem there
        cases n' with
        | published k' s' b' q' g' =>
          obtain ⟨other, same⟩ : s' ≠ s ∧ b'.rosTopic = b.rosTopic := by simpa [Note.rivals] using is
          exact ⟨[], k, s, b, q, g, mid, k', s', b', q', g', post, rfl, other.symm, same.symm, guarded⟩
        | _ => cases is
      · exact deeper later
    | _ => exact deeper h

theorem twoOperators_made (k : Nat) (born : k < 2) : MadeFor rivalConfig.topics smallBridge twoOperators k := by
  match k, born with
  | 0, _ => exact ⟨[], .calm 0, smallOptions [guardedTopic], twoOperators.tail, rfl, rfl, rfl, by decide +kernel⟩
  | 1, _ => exact ⟨twoOperators.take 1, .calm 0, smallOptions [guardedTopic], twoOperators.drop 2, rfl, rfl, by decide +kernel, by decide +kernel⟩

/-- Whether nothing that can end a lease stands between a ticket and the publication that it
is for. -/
def undisturbed : Bool → List Note → Bool
  | _, [] => true
  | _, .validated _ _ _ :: rest => undisturbed true rest
  | _, .published _ _ _ _ _ :: rest => undisturbed false rest
  | waiting, n :: rest =>
    (match n with
      | .armed _ _ _ _ | .closedHandle _ _ | .revoked _ => !waiting
      | _ => true) && undisturbed waiting rest

theorem undisturbed_later {waiting : Bool} {earlier later : List Note} (h : undisturbed waiting (earlier ++ later) = true) :
    ∃ waiting', undisturbed waiting' later = true := by
  induction earlier generalizing waiting with
  | nil => exact ⟨waiting, h⟩
  | cons n rest ih =>
    cases n with
    | validated | published => exact ih h
    | _ => exact ih (Bool.and_eq_true_iff.1 h).2

theorem undisturbed_waiting {hooks later : List Note} (h : undisturbed true (hooks ++ later) = true)
    (ofHook : ∀ n ∈ hooks, n.OfHook) (sessionId handle : String) (lease : Lease) : ∀ n ∈ hooks, ¬n.Ends sessionId handle lease := by
  induction hooks with
  | nil => simp
  | cons n rest ih =>
    obtain ⟨first, others⟩ := List.forall_mem_cons.1 ofHook
    cases n with
    | asked | answered | shut =>
      exact List.forall_mem_cons.2 ⟨id, ih (Bool.and_eq_true_iff.1 h).2 others⟩
    | armed | closedHandle | revoked => cases (Bool.and_eq_true_iff.1 h).1
    | _ => exact first.elim

theorem undisturbed_intact {history before post : List Note} {n : Note} {request : CommandRequest} {st : HandleState} {lease : Lease}
    {after : List Note} (calm : undisturbed false history = true) (split : history = before ++ n :: post)
    (ticket : Ticketed before request st lease after) : Intact request lease after := by
  obtain ⟨earlier, t, g, rfl, -⟩ := ticket.validated
  rw [split, List.append_assoc] at calm
  obtain ⟨waiting, rest⟩ := undisturbed_later calm
  exact undisturbed_waiting rest ticket.hooks _ _ _

theorem writers_separated_two : create "g" (some 2) (some 8) (some 250) (some 0) = .ok smallGuard ∧
    ∃ pre k₁ s₁ b₁ r₁ g₁ mid k₂ s₂ b₂ r₂ g₂ post, (smallBridge.run twoOperators).history =
        pre ++ .published k₁ s₁ b₁ (some r₁) g₁ :: (mid ++ .published k₂ s₂ b₂ (some r₂) g₂ :: post) ∧ s₁ ≠ s₂ ∧
      r₁.sessionId = s₁ ∧ r₂.sessionId = s₂ ∧ ∃ st₁ lease₁ after₁ st₂ lease₂ after₂,
        Ticketed pre r₁ st₁ lease₁ after₁ ∧ Intact r₁ lease₁ after₁ ∧
        Ticketed (pre ++ .published k₁ s₁ b₁ (some r₁) g₁ :: mid) r₂ st₂ lease₂ after₂ ∧ Intact r₂ lease₂ after₂ ∧
        ∃ h t g, .armed s₂ h t g ∈ after₁ ++ mid ∧ Unleased g b₁.rosTopic s₂ t := by
  have created : create "g" (some 2) (some 8) (some 250) (some 0) = .ok smallGuard := rfl
  obtain ⟨rivals, calm, born⟩ : rivalry (smallBridge.run twoOperators).history = true ∧
      undisturbed false (smallBridge.run twoOperators).history = true ∧ (smallBridge.run twoOperators).born = 2 := by decide +kernel
  obtain ⟨pre, k₁, s₁, b₁, q₁, g₁, mid, k₂, s₂, b₂, q₂, g₂, post, history, other, same, guarded⟩ := rivalry_sound rivals
  have writing := run_writing created plainNumbers noMedia twoOperators
  -- Both routers were made from the configuration, so its agreement on the topic applies.
  have made₁ := twoOperators_made k₁ (born ▸ (writing.outputs k₁ s₁ b₁ q₁ g₁ (history ▸ by simp)).1)
  have made₂ := twoOperators_made k₂ (born ▸ (writing.outputs k₂ s₂ b₂ q₂ g₂ (history ▸ by simp)).1)
  obtain ⟨-, separated⟩ := writers_separated (fun _ => some rivalDocument) "" smallSettings rivalDocument_accepted created plainNumbers
    noMedia twoOperators made₁ made₂ history same
  obtain ⟨r₁, st₁, lease₁, after₁, r₂, st₂, lease₂, after₂, rfl, session₁, ticket₁, rfl, session₂, ticket₂, armed⟩ := separated guarded
  have later : (smallBridge.run twoOperators).history =
      (pre ++ .published k₁ s₁ b₁ (some r₁) g₁ :: mid) ++ .published k₂ s₂ b₂ (some r₂) g₂ :: post := by
    rw [history, List.append_assoc, List.cons_append]
  have intact₁ := undisturbed_intact calm history ticket₁
  have intact₂ := undisturbed_intact calm later ticket₂
  exact ⟨created, pre, k₁, s₁, b₁, r₁, g₁, mid, k₂, s₂, b₂, r₂, g₂, post, history, other, session₁, session₂, st₁, lease₁, after₁,
    st₂, lease₂, after₂, ticket₁, intact₁, ticket₂, intact₂, armed other intact₁ intact₂⟩

end RosBridge.App
