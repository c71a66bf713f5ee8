import RosBridge.Router.Inputs
import RosBridge.Router.Nesting
/-!
# What a flush sends

A flush in which one data channel refuses everything, and the others accept everything
(`Blocking`), drains the streams in the order of their subscriptions up to the first that
has something for the blocked channel; nothing behind that one is sent. Flushes nest, and
hooks and events run in between, so what has been drained is an invariant of all the code
of a flush (`During`).
-/

namespace RosBridge.Router

open Lib Prog Session Config Relation

variable {η α β : Type} {env : Env η} {k : Nat} {w w' : World η}

/-- The messages queued on a stream. -/
def SessionRouter.pending (r : SessionRouter η) (stream : String) : List Bytes :=
  ((r.queue.streams.get? stream).map (·.messages)).getD []

/-- The data channel of a subscription. -/
def Subscription.channel (s : Subscription η) : Channel := dataChannel s.entry.binding.delivery

/-- What a flush of `r` has noted: the hooks pass exactly the `authorized` streams, the
channel `blocked` refuses everything, and the others accept everything. -/
structure Blocking (k : Nat) (authorized : String → Bool) (blocked : Channel) (r : SessionRouter η) (notes : List Note) : Prop where
  refused : ∀ stream, Note.refused k stream ∈ notes → authorized stream = false
  served : ∀ stream ok, Note.handed k stream ok ∈ notes → stream ≠ "control" → authorized stream = true
  control : ∀ ok, Note.handed k "control" ok ∈ notes → ok = true
  data : ∀ stream sub ok, Note.handed k stream ok ∈ notes → r.subscriptions.get? stream = some sub →
    (ok = true ↔ sub.channel ≠ blocked)

theorem Blocking.mono {authorized : String → Bool} {blocked : Channel} {r : SessionRouter η} {notes notes' : List Note}
    (h : Blocking k authorized blocked r notes') (sub : notes ⊆ notes') : Blocking k authorized blocked r notes :=
  ⟨fun s mem => h.refused s (sub mem), fun s ok mem => h.served s ok (sub mem), fun ok mem => h.control ok (sub mem),
    fun s sub' ok mem => h.data s sub' ok (sub mem)⟩

/-! ## The invariant of a flush -/

section Invariant

variable (k) (w₀ : World η) (authorized : String → Bool) (blocked : Channel)

/-- The subscriptions that the hooks pass, in the order they were made. -/
def SessionRouter.passed (r : SessionRouter η) : List (String × Subscription η) :=
  r.subscriptions.entries.filter fun e => authorized e.1

/-- In front of the stream, something is queued for the blocked channel. -/
def Behind (r : SessionRouter η) (e : String × Subscription η) : Prop :=
  ∃ b, [b, e].Sublist (r.passed authorized) ∧ b.2.channel = blocked ∧ r.pending b.1 ≠ []

/-- The flush of `w₀` has got to `w`, and everything was as it is to be. -/
def Legal (w : World η) : Prop := ∃ notes, w.history = w₀.history ++ notes ∧ Blocking k authorized blocked (w₀.routers k) notes

/-- Something was not, or the router was closed. -/
def Out (w : World η) : Prop := ¬Legal k w₀ authorized blocked w ∨ (w.routers k).closed = true

/-- Streams are as they were, or sent and not behind something that is not. -/
structure Fine (w : World η) : Prop where
  passed : (w.routers k).passed authorized = (w₀.routers k).passed authorized
  pending : ∀ e ∈ (w₀.routers k).passed authorized, (w.routers k).pending e.1 = (w₀.routers k).pending e.1 ∨
    (e.2.channel ≠ blocked ∧ ¬Behind authorized blocked (w₀.routers k) e) ∧ (w.routers k).pending e.1 = []

/-- The invariant. -/
structure During (w : World η) : Prop where
  sane : w.Sane
  born : k < w.born
  grown : w₀.history <+: w.history
  state : Out k w₀ authorized blocked w ∨ Fine k w₀ authorized blocked w

variable {k w₀ authorized blocked}

theorem Out.goes (h : Out k w₀ authorized blocked w) (g : Goes .any w w') (born : k < w.born) (grown : w₀.history <+: w.history) :
    Out k w₀ authorized blocked w' := by
  refine h.imp (fun illegal legal => illegal ?_) (Goes.kept g born).closed
  obtain ⟨notes', history', blocking⟩ := legal
  obtain ⟨notes, history⟩ := grown
  refine ⟨notes, history.symm, blocking.mono ?_⟩
  have more : notes <+: notes' := by
    have prefix_ := g.history
    rw [history', ← history] at prefix_
    exact (List.prefix_append_right_inj _).1 prefix_
  exact more.subset

theorem Fine.frame (h : Fine k w₀ authorized blocked w) (subscriptions : (w'.routers k).subscriptions = (w.routers k).subscriptions)
    (pending : ∀ e ∈ (w.routers k).subscriptions.entries, (w'.routers k).pending e.1 = (w.routers k).pending e.1) :
    Fine k w₀ authorized blocked w' := by
  have passed : (w'.routers k).passed authorized = (w.routers k).passed authorized := by
    rw [SessionRouter.passed, SessionRouter.passed, subscriptions]
  refine ⟨passed.trans h.passed, fun e mem => ?_⟩
  have here : e ∈ (w.routers k).subscriptions.entries := by
    rw [← h.passed] at mem
    exact List.mem_of_mem_filter mem
  rw [pending e here]
  exact h.pending e mem

theorem During.step (h : During k w₀ authorized blocked w) (g : Goes .any w w')
    (fine : Fine k w₀ authorized blocked w → Out k w₀ authorized blocked w' ∨ Fine k w₀ authorized blocked w') :
    During k w₀ authorized blocked w' := by
  refine ⟨g.sane h.sane, h.born.trans_le (Goes.born g), h.grown.trans g.history, ?_⟩
  rcases h.state with out | here
  · exact .inl (out.goes g h.born h.grown)
  · exact fine here

/-- Other streams, and everything else, may change. -/
theorem During.frame (h : During k w₀ authorized blocked w) (g : Goes .any w w')
    (subscriptions : (w'.routers k).subscriptions = (w.routers k).subscriptions)
    (pending : ∀ e ∈ (w.routers k).subscriptions.entries, (w'.routers k).pending e.1 = (w.routers k).pending e.1) :
    During k w₀ authorized blocked w' :=
  h.step g fun fine => .inr (fine.frame subscriptions pending)

theorem Hooked.during (h : Hooked .any w w') (during : During k w₀ authorized blocked w) : During k w₀ authorized blocked w' := by
  refine during.step h.trip.goes fun fine => ?_
  rcases h.routers k with same | shut
  · exact .inr (fine.frame (by rw [same]) fun _ _ => by rw [same])
  · exact .inl (.inr shut.closed)

/-! ## What leaves the data streams alone -/

variable (k w₀ authorized blocked) in
/-- The code of a flush keeps the invariant, whether or not it throws. -/
def Keeps (m : Code η α) (w : World η) : Prop :=
  wp m (fun _ => During k w₀ authorized blocked) (fun _ => During k w₀ authorized blocked) w

theorem Keeps.bind {m : Code η α} {f : α → Code η β} (h : Keeps k w₀ authorized blocked m w)
    (next : ∀ a w', During k w₀ authorized blocked w' → Keeps k w₀ authorized blocked (f a) w') :
    Keeps k w₀ authorized blocked (m >>= f) w := by
  unfold Keeps
  rw [wp_bind]
  exact wp_mono h next fun _ _ during => during

theorem Keeps.tryCatch {m : Code η α} {f : String → Code η α} (h : Keeps k w₀ authorized blocked m w)
    (handler : ∀ e w', During k w₀ authorized blocked w' → Keeps k w₀ authorized blocked (f e) w') :
    Keeps k w₀ authorized blocked (tryCatch m f) w := by
  unfold Keeps
  rw [wp_tryCatch]
  exact wp_mono h (fun _ _ during => during) handler

/-- Control envelopes leave the data streams alone. -/
theorem Control.pending {r r' : SessionRouter η} {bytes : Bytes} (c : Control r bytes r') {stream : String}
    (other : stream ≠ "control") : r'.pending stream = r.pending stream := by
  unfold SessionRouter.pending
  cases c with
  | queued s q found live options streams =>
    show ((q.streams.get? stream).map _).getD _ = _
    rw [streams, Table.get?_set_ne _ _ other]
  | jammed s q found live options streams =>
    show ((q.streams.get? stream).map _).getD _ = _
    rw [streams, Table.get?_set_ne _ _ other]
  | dead => rfl

theorem During.control (h : During k w₀ authorized blocked w) {bytes : Bytes} {r : SessionRouter η}
    (c : Control (w.routers k) bytes r) (plain : bytes.envelope.stream = none) :
    During k w₀ authorized blocked (w.setRouter k r) := by
  have trip : Trip .any (some k) w (w.setRouter k r) := c.trip plain
  refine h.frame trip.goes ?_ fun e mem => ?_
  · rw [World.setRouter_self]
    exact c.subscriptions
  · rw [World.setRouter_self]
    exact c.pending ((h.sane.routers k).ne_control (Table.mem_entries_iff.1 mem))

theorem respond_keeps (envelope : Envelope) (plain : envelope.stream = none) (h : During k w₀ authorized blocked w) :
    Keeps k w₀ authorized blocked (respond k envelope) w := by
  unfold Keeps
  rw [respond, wp_bind, wp_router, wp_bind, wp_throwIf]
  refine ⟨fun _ => h, fun _ => ?_⟩
  rw [wp_bind]
  refine wp_mono (encoded_spec k envelope w) ?_ ?_
  · rintro _ _ ⟨rfl, rfl, -⟩
    refine wp_mono (queueControl_spec k _ w (h.sane.routers k)) ?_ ?_
    · rintro _ _ ⟨r, control, -, rfl⟩
      exact h.control control plain
    · rintro _ _ (⟨r, control, rfl⟩ | ⟨rfl, -⟩)
      · exact h.control control plain
      · exact h
  · rintro _ _ ⟨rfl, -⟩
    exact h

theorem close_keeps (h : During k w₀ authorized blocked w) : Keeps k w₀ authorized blocked (close env k) w :=
  wp_mono (close_hooked (permits_any env) k w h.sane) (fun _ _ hooked => hooked.1.during h) fun _ _ hooked => hooked.1.1.during h

theorem hook_keeps (reactions : Nat → Reaction) (h : During k w₀ authorized blocked w) :
    Keeps k w₀ authorized blocked (hook env reactions) w :=
  wp_mono (hook_asked (permits_any env) reactions (.inl trivial) w h.sane) (fun _ _ asked => asked.toHooked.during h)
    fun _ _ asked => asked.toHooked.during h

theorem release_keeps (track : String) (h : During k w₀ authorized blocked w) :
    Keeps k w₀ authorized blocked (release env k track) w := by
  have walks : Walks .any none (release env k track) w fun _ _ => True := release_walks k track w h.sane
  refine wp_mono (wp_and (release_spec env k track w) walks) ?_ ?_
  · rintro _ _ ⟨⟨-, sources, rfl⟩, trip, -⟩
    refine h.frame trip.goes ?_ fun e _ => ?_
    · show ((w.setRouter k _).routers k).subscriptions = _
      rw [World.setRouter_self]
      rfl
    · show ((w.setRouter k _).routers k).pending e.1 = _
      rw [World.setRouter_self]
      rfl
  · rintro _ _ ⟨⟨-, rfl⟩, trip⟩
    refine h.frame trip.goes ?_ fun e _ => ?_
    · show ((w.setRouter k _).routers k).subscriptions = _
      rw [World.setRouter_self]
      rfl
    · show ((w.setRouter k _).routers k).pending e.1 = _
      rw [World.setRouter_self]
      rfl

section Nested

variable {again : Code η Unit} (nested : ∀ w, During k w₀ authorized blocked w → Keeps k w₀ authorized blocked again w)

include nested

theorem errorWith_keeps (id : Option String) (h : During k w₀ authorized blocked w) :
    Keeps k w₀ authorized blocked (errorWith env again k id) w := by
  unfold Keeps
  rw [errorWith, wp_bind, wp_router, wp_when]
  refine ⟨fun _ => ?_, fun _ => h⟩
  apply Keeps.tryCatch ((respond_keeps _ rfl h).bind fun _ w₁ h₁ => nested w₁ h₁)
  exact fun _ w₁ h₁ => close_keeps h₁

theorem eventWith_keeps (envelope : Envelope) (plain : envelope.stream = none) (h : During k w₀ authorized blocked w) :
    Keeps k w₀ authorized blocked (eventWith env again k envelope) w := by
  unfold eventWith
  apply Keeps.tryCatch ((respond_keeps _ plain h).bind fun _ w₁ h₁ => nested w₁ h₁)
  exact fun _ w₁ h₁ => errorWith_keeps nested none h₁

theorem viewerStateWith_keeps (track : String) (state : Media.VideoState) (h : During k w₀ authorized blocked w) :
    Keeps k w₀ authorized blocked (viewerStateWith env again k track state) w := by
  unfold Keeps
  rw [viewerStateWith, wp_bind, wp_bindingOf]
  split
  · exact h
  · rw [wp_bind, wp_when]
    refine ⟨fun _ => ?_, fun _ => eventWith_keeps nested _ rfl h⟩
    rw [wp_setBinding]
    apply eventWith_keeps nested _ rfl
    have trip : Trip .any none w (w.setRouter k ((w.routers k).flag track fun b =>
        { b with watching := false, attached := false })) := .flag w k track _ (by intro _; rfl) (by simp)
    refine h.frame trip.goes ?_ fun e _ => ?_
    · rw [World.setRouter_self]
      rfl
    · rw [World.setRouter_self]
      rfl

theorem revalidateTrackWith_keeps (track : String) (h : During k w₀ authorized blocked w) :
    Keeps k w₀ authorized blocked (revalidateTrackWith env again k track) w := by
  unfold Keeps
  rw [revalidateTrackWith, wp_bind, wp_bindingOf]
  split
  · exact h
  · rw [wp_when]
    refine ⟨fun _ => ?_, fun _ => h⟩
    refine (hook_keeps env.videoAuthorize h).bind fun ok w₁ h₁ => ?_
    unfold Keeps
    rw [wp_when]
    refine ⟨fun _ => ?_, fun _ => h₁⟩
    exact (release_keeps track h₁).bind fun _ w₂ h₂ => viewerStateWith_keeps nested track .failed h₂

theorem revalidateWith_keeps (tracks : List String) (h : During k w₀ authorized blocked w) :
    Keeps k w₀ authorized blocked (revalidateWith env again k tracks) w := by
  induction tracks generalizing w with
  | nil => exact h
  | cons track tracks ih => exact (revalidateTrackWith_keeps nested track h).bind fun _ w₁ h₁ => ih h₁

end Nested

/-! ## Draining a stream -/

/-- `send` has accepted the first `n` messages of a stream and, if `stopped`, refused
the next one. -/
structure Drains (k : Nat) (stream : String) (n : Nat) (stopped : Bool) (w w' : World η) : Prop where
  subscriptions : (w'.routers k).subscriptions = (w.routers k).subscriptions
  others : ∀ other, other ≠ stream → (w'.routers k).pending other = (w.routers k).pending other
  pending : (w'.routers k).pending stream = ((w.routers k).pending stream).drop n
  history : w'.history = w.history ++ List.replicate n (.handed k stream true) ++ if stopped then [.handed k stream false] else []
  count : if stopped then n < ((w.routers k).pending stream).length else n = ((w.routers k).pending stream).length

theorem pending_of_found {r : SessionRouter η} {stream : String} {s : Stream Bytes} (found : r.queue.streams.get? stream = some s) :
    r.pending stream = s.messages := by
  rw [SessionRouter.pending, found]
  rfl

theorem drainLoop_drains (stream : String) (channel : Channel) (fuel : Nat) (w : World η) {s : Stream Bytes}
    (found : (w.routers k).queue.streams.get? stream = some s) (live : s.stopped = false) (enough : s.messages.length < fuel) :
    wp (drainLoop env k stream channel fuel) (fun done w' => ∃ n, Drains k stream n (!done) w w') (fun _ _ => False) w := by
  induction fuel generalizing w s with
  | zero => exact absurd enough (Nat.not_lt_zero _)
  | succ fuel ih =>
    rw [drainLoop, wp_bind, wp_onQueue]
    refine wp_mono (DeliveryQueue.peek_spec stream (w.routers k).queue) ?_ ?_
    · rintro m _ ⟨rfl, s', found', -, head⟩
      obtain rfl : s = s' := Option.some.inj (found.symm.trans found')
      have same : w.setRouter k { w.routers k with queue := (w.routers k).queue } = w := World.setRouter_same w k
      rw [same]
      cases m with
      | none =>
        have empty : (w.routers k).pending stream = [] := (pending_of_found found).trans (List.head?_eq_none_iff.1 head)
        refine ⟨0, rfl, fun _ _ => rfl, rfl, ?_, ?_⟩
        · simp
        · simp [empty]
      | some next =>
        obtain ⟨rest, messages⟩ := List.head?_eq_some_iff.1 head
        have pending : (w.routers k).pending stream = next :: rest := (pending_of_found found).trans messages
        rw [wp_bind, wp_ask, wp_bind, wp_mark, wp_bind, wp_note]
        cases env.send w.tick with
        | false =>
          refine ⟨0, ?_, fun _ _ => ?_, ?_, ?_, ?_⟩
          · show ((World.setRouter _ k _).routers k).subscriptions = _
            rw [World.setRouter_self]
            rfl
          · show ((World.setRouter _ k _).routers k).pending _ = _
            rw [World.setRouter_self]
            rfl
          · show ((World.setRouter _ k _).routers k).pending _ = _
            rw [World.setRouter_self]
            rfl
          · simp
          · simp [pending]
        | true =>
          rw [if_pos rfl, wp_bind, wp_onQueue]
          simp only [World.setRouter_self]
          refine wp_mono (DeliveryQueue.dequeue_spec stream _) ?_ ?_
          · rintro _ q ⟨-, s', found', streams⟩
            obtain rfl : s = s' := Option.some.inj (found.symm.trans found')
            rw [messages, List.tail_cons] at streams
            generalize hw₁ : World.setRouter _ k _ = w₁
            have own : w₁.routers k = ({ w.routers k with queue := q }).marked (.handed channel next.envelope true) := by
              rw [← hw₁, World.setRouter_self]
              rfl
            have history : w₁.history = w.history ++ [.handed k stream true] := by rw [← hw₁]; rfl
            have found₁ : (w₁.routers k).queue.streams.get? stream = some { s with messages := rest } := by
              rw [own]
              show q.streams.get? stream = _
              rw [streams, Table.get?_set_self]
            have shorter : rest.length < fuel := by
              rw [messages, List.length_cons] at enough
              omega
            refine wp_mono (ih w₁ found₁ live shorter) ?_ fun _ _ h => h
            rintro done w₂ ⟨n, drains⟩
            have left : (w₁.routers k).pending stream = rest := pending_of_found found₁
            refine ⟨n + 1, ?_, fun other apart => ?_, ?_, ?_, ?_⟩
            · rw [drains.subscriptions, own]
              rfl
            · rw [drains.others other apart, own]
              show ((q.streams.get? other).map _).getD _ = _
              rw [streams, Table.get?_set_ne _ _ apart]
              rfl
            · rw [drains.pending, left, pending, List.drop_succ_cons]
            · rw [drains.history, history, List.replicate_succ]
              simp only [List.append_assoc, List.cons_append, List.nil_append]
            · have count := drains.count
              rw [left] at count
              rw [pending, List.length_cons]
              cases done with
              | true => exact congrArg Nat.succ count
              | false => exact Nat.succ_lt_succ count
          · rintro _ _ ⟨-, stopped⟩
            exact absurd (live.symm.trans (stopped s found)) (by simp)
    · rintro _ _ ⟨-, stopped⟩
      exact absurd (live.symm.trans (stopped s found)) (by simp)

theorem drain_drains (stream : String) (channel : Channel) (w : World η) {s : Stream Bytes}
    (found : (w.routers k).queue.streams.get? stream = some s) (live : s.stopped = false) :
    wp (drain env k stream channel) (fun done w' => ∃ n, Drains k stream n (!done) w w') (fun _ _ => False) w := by
  rw [drain, wp_bind, wp_router, found]
  exact drainLoop_drains stream channel _ w found live (Nat.lt_succ_self _)

/-- What a stream that the hooks pass is left with: everything is sent, or its channel is
the blocked one and nothing is. -/
theorem Drains.fine {e : String × Subscription η} {n : Nat} {stopped : Bool} (h : During k w₀ authorized blocked w)
    (drains : Drains k e.1 n stopped w w') (found : (w.routers k).subscriptions.get? e.1 = some e.2)
    (fine : Fine k w₀ authorized blocked w) (front : ¬Behind authorized blocked (w₀.routers k) e) :
    Out k w₀ authorized blocked w' ∨ Fine k w₀ authorized blocked w' ∧
      (stopped = false → authorized e.1 = true → (w'.routers k).pending e.1 = []) ∧
      (stopped = true → authorized e.1 = true ∧ e.2.channel = blocked ∧ (w'.routers k).pending e.1 = (w.routers k).pending e.1 ∧
        (w'.routers k).pending e.1 ≠ []) := by
  by_cases legal : Legal k w₀ authorized blocked w'
  · right
    obtain ⟨notes, history, blocking⟩ := legal
    obtain ⟨notes₀, history₀⟩ := h.grown
    have noted : ∀ note ∈ List.replicate n (.handed k e.1 true) ++ (if stopped then [.handed k e.1 false] else []), note ∈ notes := by
      have all := drains.history
      rw [history, ← history₀, List.append_assoc, List.append_assoc, List.append_cancel_left_eq] at all
      rw [all]
      exact fun note mem => List.mem_append_right _ mem
    have accepts : n ≠ 0 → Note.handed k e.1 true ∈ notes := fun pos =>
      noted _ (List.mem_append_left _ (List.mem_replicate.2 ⟨pos, rfl⟩))
    have refuses : stopped = true → Note.handed k e.1 false ∈ notes := by
      rintro rfl
      exact noted _ (List.mem_append_right _ List.mem_cons_self)
    have other : e.1 ≠ "control" := (h.sane.routers k).ne_control found
    have here : authorized e.1 = true → (w₀.routers k).subscriptions.get? e.1 = some e.2 := by
      intro passes
      have mem : e ∈ (w.routers k).passed authorized := List.mem_filter.2 ⟨Table.mem_entries_iff.2 found, passes⟩
      rw [fine.passed] at mem
      exact Table.mem_entries_iff.1 (List.mem_of_mem_filter mem)
    have sent : n ≠ 0 → e.2.channel ≠ blocked := fun pos =>
      (blocking.data _ _ _ (accepts pos) (here (blocking.served _ _ (accepts pos) other))).1 rfl
    have blocks : stopped = true → authorized e.1 = true ∧ e.2.channel = blocked := by
      intro stop
      have passes := blocking.served _ _ (refuses stop) other
      refine ⟨passes, ?_⟩
      by_contra apart
      cases (blocking.data _ _ _ (refuses stop) (here passes)).2 apart
    have whole : stopped = false → (w'.routers k).pending e.1 = [] := by
      rintro rfl
      have count : n = ((w.routers k).pending e.1).length := drains.count
      rw [drains.pending, count, List.drop_length]
    have none : stopped = true → n = 0 := fun stop => by_contra fun pos => sent pos (blocks stop).2
    refine ⟨⟨?_, fun e' mem => ?_⟩, fun go _ => whole go, fun stop => ⟨(blocks stop).1, (blocks stop).2, ?_, ?_⟩⟩
    · rw [SessionRouter.passed, drains.subscriptions]
      exact fine.passed
    · by_cases same : e'.1 = e.1
      · have found' : (w.routers k).subscriptions.get? e'.1 = some e'.2 := by
          rw [← fine.passed] at mem
          exact Table.mem_entries_iff.1 (List.mem_of_mem_filter mem)
        rw [same] at found'
        have equal : e' = e := Prod.ext same (Option.some.inj (found'.symm.trans found))
        rw [equal] at mem ⊢
        by_cases pos : n = 0
        · rw [drains.pending, pos, List.drop_zero]
          exact fine.pending e mem
        · refine .inr ⟨⟨sent pos, front⟩, whole ?_⟩
          exact Bool.eq_false_iff.2 fun stop => pos (none stop)
      · rw [drains.others _ same]
        exact fine.pending e' mem
    · rw [drains.pending, none stop, List.drop_zero]
    · have count := drains.count
      rw [stop, if_pos rfl, none stop] at count
      rw [drains.pending, none stop, List.drop_zero]
      exact List.ne_nil_of_length_pos count
  · exact .inl (.inl legal)

/-- Control is sent as a whole. -/
theorem drain_control_keeps (h : During k w₀ authorized blocked w) :
    wp (drain env k "control" .control)
      (fun done w' => During k w₀ authorized blocked w' ∧ (done = false → Out k w₀ authorized blocked w'))
      (fun _ => During k w₀ authorized blocked) w := by
  have walks : Walks .any none (drain env k "control" .control) w _ := drain_control k w
  by_cases live : ∃ s, (w.routers k).queue.streams.get? "control" = some s ∧ s.stopped = false
  · obtain ⟨s, found, live⟩ := live
    refine wp_mono (wp_and walks (drain_drains "control" .control w found live)) ?_ fun _ _ h => h.2.elim
    rintro done w' ⟨⟨trip, -⟩, n, drains⟩
    constructor
    · refine h.frame trip.goes drains.subscriptions fun e mem => ?_
      exact drains.others e.1 ((h.sane.routers k).ne_control (Table.mem_entries_iff.1 mem))
    · rintro rfl
      refine .inl fun ⟨notes, history, blocking⟩ => ?_
      obtain ⟨notes₀, history₀⟩ := h.grown
      have all := drains.history
      rw [history, ← history₀, List.append_assoc, List.append_assoc, List.append_cancel_left_eq] at all
      have refused : Note.handed k "control" false ∈ notes := by
        rw [all]
        exact List.mem_append_right _ (List.mem_append_right _ List.mem_cons_self)
      cases blocking.control _ refused
  · rw [drain, wp_bind, wp_router, drainLoop, wp_bind, wp_onQueue]
    refine wp_mono (DeliveryQueue.peek_spec "control" (w.routers k).queue) ?_ ?_
    · rintro _ _ ⟨-, s, found, here, -⟩
      exact absurd ⟨s, found, here⟩ live
    · rintro _ _ ⟨rfl, -⟩
      rw [World.setRouter_same]
      exact h

/-! ## Refusing a stream -/

theorem Removed.during {stream : String} (h : During k w₀ authorized blocked w)
    (removed : Removed .any k stream { w with history := w.history ++ [.refused k stream] } w') :
    During k w₀ authorized blocked w' := by
  have trip : Trip .any none w w' := removed.trip h.sane (.inr rfl)
  refine h.step trip.goes fun fine => ?_
  by_cases legal : Legal k w₀ authorized blocked w'
  · right
    obtain ⟨notes, history, blocking⟩ := legal
    obtain ⟨notes₀, history₀⟩ := h.grown
    obtain ⟨sub, q, listeners, tick, found, options, streams, left, rfl⟩ := removed
    have noted : Note.refused k stream ∈ notes := by
      have all : w.history ++ [.refused k stream] = w₀.history ++ notes := history
      rw [← history₀, List.append_assoc, List.append_cancel_left_eq] at all
      rw [← all]
      exact List.mem_append_right _ List.mem_cons_self
    have revoked := blocking.refused _ noted
    have own : ((World.setRouter w k ((w.routers k).unsubscribe stream q)).routers k) = (w.routers k).unsubscribe stream q :=
      World.setRouter_self _ _ _
    have passed : ((w.routers k).unsubscribe stream q).passed authorized = (w.routers k).passed authorized := by
      show ((w.routers k).subscriptions.entries.filter _).filter _ = _
      rw [List.filter_filter]
      refine List.filter_congr fun e _ => ?_
      cases passes : authorized e.1 with
      | false => rfl
      | true =>
        have other : e.1 ≠ stream := by
          rintro rfl
          exact absurd (revoked.symm.trans passes) (by simp)
        simp [other]
    refine ⟨?_, fun e mem => ?_⟩
    · show ((World.setRouter w k _).routers k).passed authorized = _
      rw [own, passed]
      exact fine.passed
    · show ((World.setRouter w k _).routers k).pending e.1 = _ ∨ _ ∧ ((World.setRouter w k _).routers k).pending e.1 = _
      have other : e.1 ≠ stream := by
        rintro rfl
        rw [SessionRouter.passed, List.mem_filter] at mem
        exact absurd mem.2 (by simp [revoked])
      have same : ((w.routers k).unsubscribe stream q).pending e.1 = (w.routers k).pending e.1 := by
        show ((q.streams.get? e.1).map _).getD _ = _
        rw [streams, Table.get?_erase_ne _ other]
        rfl
      rw [own, same]
      exact fine.pending e mem
  · exact .inl (.inl legal)

theorem refuse_keeps (stream : String) (h : During k w₀ authorized blocked w) (issued : (w.routers k).Issued stream) :
    Keeps k w₀ authorized blocked (do
      note (.refused k stream)
      when ((← router k).subscriptions.has stream) <| removeSubscription env k stream) w := by
  set w₁ : World η := { w with history := w.history ++ [.refused k stream] }
  have absent : (w.routers k).subscriptions.get? stream = none → During k w₀ authorized blocked w₁ := by
    intro absent
    have trip : Trip .any none w w₁ := .single (.refused k stream absent issued h.born) rfl rfl
    exact h.frame trip.goes rfl fun _ _ => rfl
  unfold Keeps
  simp only [wp_bind, wp_note, wp_router, wp_when]
  refine ⟨fun _ => ?_, fun has => absent (by simpa [Table.has] using has)⟩
  refine wp_mono (removeSubscription_spec (permits_any env) k stream w₁ h.sane.registered) (fun _ _ removed => removed.during h) ?_
  rintro _ _ (⟨removed, -⟩ | ⟨rfl, none⟩)
  · exact removed.during h
  · exact absent none

/-! ## The whole flush -/

theorem Fine.order {e : String × Subscription η} {seen rest : List (String × Subscription η)}
    (fine : Fine k w₀ authorized blocked w) (entries : (w.routers k).subscriptions.entries = seen ++ e :: rest)
    (passes : authorized e.1 = true) :
    (w₀.routers k).passed authorized = seen.filter (fun e => authorized e.1) ++ e :: rest.filter fun e => authorized e.1 := by
  rw [← fine.passed, SessionRouter.passed, entries, List.filter_append, List.filter_cons_of_pos (by exact passes)]

/-- No stream is behind something blocked when its turn comes. -/
theorem Fine.front {e : String × Subscription η} {seen rest : List (String × Subscription η)}
    (fine : Fine k w₀ authorized blocked w) (entries : (w.routers k).subscriptions.entries = seen ++ e :: rest)
    (empty : ∀ b ∈ seen, authorized b.1 = true → (w.routers k).pending b.1 = []) :
    ¬Behind authorized blocked (w₀.routers k) e := by
  rintro ⟨b, order, channel, queued⟩
  have passes : authorized e.1 = true := (List.mem_filter.1 (order.subset (by simp))).2
  have first : b ∉ seen.filter fun e => authorized e.1 := by
    intro mem
    have waiting := (fine.pending b (order.subset List.mem_cons_self)).resolve_right fun sent => sent.1.1 channel
    exact queued (waiting ▸ empty b (List.mem_of_mem_filter mem) (List.mem_filter.1 mem).2)
  have nodup : ((w₀.routers k).passed authorized).Nodup := (w₀.routers k).subscriptions.nodup.of_map.filter _
  rw [fine.order entries passes] at order nodup
  obtain ⟨front, back, split, low, high⟩ := List.sublist_append_iff.1 order
  cases front with
  | cons x front =>
    obtain rfl : b = x := (List.cons.inj split).1
    exact first (low.subset List.mem_cons_self)
  | nil =>
    have alone : e ∉ rest.filter fun e => authorized e.1 := (List.nodup_cons.1 (List.nodup_append.1 nodup).2.1).1
    rw [List.nil_append] at split
    rw [← split] at high
    cases high with
    | cons _ high => exact alone (high.subset (by simp))
    | cons_cons _ high => exact alone (high.subset List.mem_cons_self)

variable (k w₀ authorized blocked) in
/-- Streams that the hooks pass are empty, unless they or one in front of them are blocked. -/
def Done (w : World η) : Prop :=
  Out k w₀ authorized blocked w ∨ ∀ e ∈ (w₀.routers k).passed authorized, e.2.channel ≠ blocked →
    ¬Behind authorized blocked (w₀.routers k) e → (w.routers k).pending e.1 = []

/-- A stream that is sent leaves the next one in front; one that is not ends the flush. -/
theorem Drains.turn {e : String × Subscription η} {seen rest : List (String × Subscription η)} {n : Nat} {stopped : Bool}
    (h : During k w₀ authorized blocked w) (drains : Drains k e.1 n stopped w w')
    (entries : (w.routers k).subscriptions.entries = seen ++ e :: rest) (fine : Fine k w₀ authorized blocked w)
    (empty : ∀ b ∈ seen, authorized b.1 = true → (w.routers k).pending b.1 = []) :
    Out k w₀ authorized blocked w' ∨ Fine k w₀ authorized blocked w' ∧
      (stopped = false → ∀ b ∈ seen ++ [e], authorized b.1 = true → (w'.routers k).pending b.1 = []) ∧
      (stopped = true → Done k w₀ authorized blocked w') := by
  have nodup := (w.routers k).subscriptions.nodup
  rw [entries, List.map_append, List.map_cons] at nodup
  have others : ∀ b ∈ seen, authorized b.1 = true → (w'.routers k).pending b.1 = [] := by
    intro b mem passes
    have apart : b.1 ≠ e.1 := by
      have disjoint := (List.nodup_append.1 nodup).2.2
      exact disjoint b.1 (List.mem_map_of_mem mem) e.1 List.mem_cons_self
    rw [drains.others _ apart]
    exact empty b mem passes
  have found : (w.routers k).subscriptions.get? e.1 = some e.2 := by
    rw [← Table.mem_entries_iff, entries]
    exact List.mem_append_right _ List.mem_cons_self
  refine (drains.fine h found fine (fine.front entries empty)).imp_right fun ⟨fine', sent, refused⟩ => ⟨fine', ?_, ?_⟩
  · intro go b mem passes
    rcases List.mem_append.1 mem with mem | mem
    · exact others b mem passes
    · obtain rfl := List.mem_singleton.1 mem
      exact sent go passes
  · intro stop
    obtain ⟨passes, channel, unsent, waiting⟩ := refused stop
    have first : (w₀.routers k).pending e.1 ≠ [] := by
      have mem : e ∈ (w₀.routers k).passed authorized := by
        rw [fine.order entries passes]
        exact List.mem_append_right _ List.mem_cons_self
      rw [← (fine'.pending e mem).resolve_right fun sent => sent.1.1 channel]
      exact waiting
    refine .inr fun b mem channel' front => ?_
    rw [fine.order entries passes] at mem
    rcases List.mem_append.1 mem with mem | mem
    · exact others b (List.mem_of_mem_filter mem) (List.mem_filter.1 mem).2
    rcases List.mem_cons.1 mem with rfl | mem
    · exact absurd channel channel'
    · refine absurd ⟨e, ?_, channel, first⟩ front
      rw [fine.order entries passes]
      exact ((List.singleton_sublist.2 mem).cons_cons e).trans (List.sublist_append_right _ _)

section Nested

variable {n : Nat} {again : Code η Unit}
  (keeps : ∀ w, During k w₀ authorized blocked w → Keeps k w₀ authorized blocked again w)
  (sends : ∀ w, During k w₀ authorized blocked w → Within k n w →
    wp again (fun _ => Done k w₀ authorized blocked) (fun _ _ => True) w)

include keeps sends

theorem errorWith_done (id : Option String) (h : During k w₀ authorized blocked w)
    (lower : Within k n w ∨ (w.routers k).closed = true) :
    wp (errorWith env again k id) (fun _ => Done k w₀ authorized blocked) (fun _ _ => True) w := by
  rw [errorWith, wp_bind, wp_router, wp_when]
  refine ⟨fun isOpen => ?_, fun closed => .inl (.inr (by simpa using closed))⟩
  have isOpen : (w.routers k).closed ≠ true := by simpa using isOpen
  rw [wp_tryCatch, wp_bind]
  have close : ∀ w₁, During k w₀ authorized blocked w₁ →
      wp (close env k) (fun _ => Done k w₀ authorized blocked) (fun _ _ => True) w₁ := fun w₁ h₁ =>
    wp_mono (close_hooked (permits_any env) k w₁ h₁.sane) (fun _ _ shut => .inl (.inr shut.2)) fun _ _ _ => trivial
  refine wp_mono (wp_and (respond_keeps (.error id) rfl h) (respond_within (.error id) rfl (lower.resolve_right isOpen))) ?_
    fun _ w₁ h₁ => close w₁ h₁.1
  rintro _ w₁ ⟨h₁, within⟩
  exact wp_mono (wp_and (keeps w₁ h₁) (sends w₁ h₁ within)) (fun _ _ h => h.2) fun _ w₂ h₂ => close w₂ h₂.1

theorem recheckWith_done {stream : String} {sub : Subscription η} (name : String) (h : During k w₀ authorized blocked w)
    (found : (w.routers k).subscriptions.get? stream = some sub) :
    wp (recheckWith env again k stream name)
      (fun ok w' => During k w₀ authorized blocked w' ∧ (ok = false → Within k (n + 1) w → Done k w₀ authorized blocked w'))
      (fun _ => During k w₀ authorized blocked) w := by
  rw [recheckWith, wp_tryCatch, wp_bind]
  refine wp_mono (entry_entered (permits_any env) k name .subscribe w h.sane) (fun e w₁ entered => ?_) (fun _ w₁ hooked => ?_)
  · exact ⟨entered.toHooked.during h, by simp⟩
  have h₁ := hooked.during h
  have issued := hooked.issued ((h.sane.routers k).issued stream sub found)
  have handler : wp (do
      (do note (.refused k stream); when ((← router k).subscriptions.has stream) <| removeSubscription env k stream)
      errorWith env again k none
      return false)
      (fun ok w' => During k w₀ authorized blocked w' ∧ (ok = false → Within k (n + 1) w → Done k w₀ authorized blocked w'))
      (fun _ => During k w₀ authorized blocked) w₁ := by
    rw [wp_bind]
    have refuse (within : Within k (n + 1) w) : wp (do
        note (.refused k stream)
        when ((← router k).subscriptions.has stream) <| removeSubscription env k stream) _ _ w₁ :=
      refuse_within stream (hooked.within within) (hooked.has found)
    refine wp_mono (wp_and (refuse_keeps stream h₁ issued) (wp_imp refuse)) ?_ fun _ _ h => h.1
    rintro _ w₂ ⟨h₂, lower⟩
    rw [wp_bind]
    have tell (within : Within k (n + 1) w) : wp (errorWith env again k none) _ _ w₂ :=
      errorWith_done keeps sends none h₂ ((lower within).imp id And.right)
    exact wp_mono (wp_and (errorWith_keeps keeps none h₂) (wp_imp tell)) (fun _ _ h => ⟨h.1, fun _ => h.2⟩) fun _ _ h => h.1
  rwa [bind_assoc] at handler

/-- The streams that have had their turn are empty. -/
theorem flushStreamsWith_done (roams : Roams .any again) (subs : List (String × Subscription η))
    (h : During k w₀ authorized blocked w) (flushing : .flushing k ∈ w.history) (idle : (w.routers k).Idle "control")
    (seen : List (String × Subscription η)) (entries : (w.routers k).subscriptions.entries = seen ++ subs)
    (sent : Out k w₀ authorized blocked w ∨ Fine k w₀ authorized blocked w ∧
      ∀ e ∈ seen, authorized e.1 = true → (w.routers k).pending e.1 = []) :
    wp (flushStreamsWith env again k subs)
      (fun _ w' => During k w₀ authorized blocked w' ∧ (Within k (n + 1) w → Done k w₀ authorized blocked w'))
      (fun _ => During k w₀ authorized blocked) w := by
  induction subs generalizing w seen with
  | nil =>
    refine ⟨h, fun _ => sent.imp id ?_⟩
    rintro ⟨fine, empty⟩ e mem - -
    rw [← fine.passed, SessionRouter.passed, entries, List.append_nil, List.mem_filter] at mem
    exact empty e mem.1 mem.2
  | cons e rest ih =>
    have found : (w.routers k).subscriptions.get? e.1 = some e.2 := by
      rw [← Table.mem_entries_iff, entries]
      exact List.mem_append_right _ List.mem_cons_self
    have walks : Walks .any none _ w _ := recheckWith_walks (permits_any env) roams k e.1 e.2.entry.binding.publicName w
      h.sane flushing ((h.sane.routers k).issued e.1 e.2 found) h.born
    rw [flushStreamsWith, wp_bind]
    refine wp_mono (wp_and walks (recheckWith_done keeps sends e.2.entry.binding.publicName h found)) ?_ fun _ _ h => h.2
    rintro ok w₁ ⟨⟨trip, checked⟩, h₁, refused⟩
    rw [wp_when]
    refine ⟨fun hok => ?_, fun refusal => ⟨h₁, refused (by simpa using refusal)⟩⟩
    obtain ⟨same, isOpen, rechecked⟩ := checked hok
    have sent₁ : Out k w₀ authorized blocked w₁ ∨ Fine k w₀ authorized blocked w₁ ∧
        ∀ e ∈ seen, authorized e.1 = true → (w₁.routers k).pending e.1 = [] := by
      refine sent.imp (fun out => out.goes trip.goes h.born h.grown) fun ⟨fine, empty⟩ => ⟨?_, ?_⟩
      · exact fine.frame (by rw [same]) fun _ _ => by rw [same]
      · rw [same]
        exact empty
    rw [← same] at found entries idle isOpen
    obtain ⟨s, registered, live⟩ := (h₁.sane.routers k).live e.1 e.2 found
    have walks : Walks .any none (drain env k e.1 e.2.channel) w₁ _ := drain_data k e.1 e.2 w₁ h₁.sane found isOpen idle rechecked
    rw [wp_bind]
    refine wp_mono (wp_and (wp_and walks (drain_drained e.1 _ w₁)) (drain_drains e.1 _ w₁ registered live)) ?_ fun _ _ h => h.2.elim
    rintro done w₂ ⟨⟨⟨trip₂, idle₂⟩, drained⟩, m, drains⟩
    have sent₂ : Out k w₀ authorized blocked w₂ ∨ Fine k w₀ authorized blocked w₂ ∧
        ((!done) = false → ∀ b ∈ seen ++ [e], authorized b.1 = true → (w₂.routers k).pending b.1 = []) ∧
        ((!done) = true → Done k w₀ authorized blocked w₂) := by
      rcases sent₁ with out | ⟨fine, empty⟩
      · exact .inl (out.goes trip₂.goes h₁.born h₁.grown)
      · exact drains.turn h₁ entries fine empty
    have h₂ : During k w₀ authorized blocked w₂ := h₁.step trip₂.goes fun _ => sent₂.imp id And.left
    rw [wp_when]
    refine ⟨fun hdone => ?_, fun refusal => ⟨h₂, fun _ => ?_⟩⟩
    · obtain ⟨idle₂, subs₂⟩ := idle₂ hdone
      have all : (w₂.routers k).subscriptions.entries = (seen ++ [e]) ++ rest := by
        rw [subs₂, entries, List.append_assoc, List.singleton_append]
      have flushing₂ := (trip.goes.history.trans trip₂.goes.history).subset flushing
      refine wp_mono (ih h₂ flushing₂ idle₂ (seen ++ [e]) all ?_) (fun _ _ h => ⟨h.1, fun within => h.2 ?_⟩) fun _ _ h => h
      · exact sent₂.imp id fun ⟨fine, empty, _⟩ => ⟨fine, empty (by simp [hdone])⟩
      · exact drained.within h₂.sane ⟨h₁.sane, same ▸ within.depth⟩
    · exact sent₂.elim .inl fun ⟨_, _, ended⟩ => ended (by simpa using refusal)

theorem flushWith_done (roams : Roams .any again) (flat : ∀ w, Within k n w → Alike (Within k n) again again w)
    (h : During k w₀ authorized blocked w) :
    wp (flushWith env again k)
      (fun _ w' => During k w₀ authorized blocked w' ∧ (Within k (n + 1) w → Done k w₀ authorized blocked w'))
      (fun _ => During k w₀ authorized blocked) w := by
  rw [flushWith, wp_bind, wp_router, wp_when]
  refine ⟨fun isOpen => ?_, fun closed => ⟨h, fun _ => .inl (.inr (by simpa using closed))⟩⟩
  rw [wp_bind, wp_note]
  set w₁ : World η := { w with history := w.history ++ [.flushing k] } with hw₁
  have trip₁ : Trip .any none w w₁ := .single (.flushing k (by simpa using isOpen)) rfl rfl
  have h₁ : During k w₀ authorized blocked w₁ := h.frame trip₁.goes rfl fun _ _ => rfl
  generalize ((w.routers k).video.map _).getD [] = tracks
  have walks : Walks .any none _ w₁ _ := revalidateWith_walks (permits_any env) roams k tracks w₁ h₁.sane
  have within := wp_imp fun within : Within k (n + 1) w =>
    have alike : Alike _ (revalidateWith env again k tracks) _ w₁ := revalidateWith_alike flat tracks (within.noted _)
    alike.ends
  rw [wp_bind]
  refine wp_mono (wp_and (wp_and walks (revalidateWith_keeps keeps tracks h₁)) within) ?_ fun _ _ h => h.1.2
  rintro _ w₂ ⟨⟨⟨trip₂, -⟩, h₂⟩, within₂⟩
  have idles : Walks .any none (drain env k "control" .control) w₂ _ := drain_control k w₂
  rw [wp_bind]
  refine wp_mono (wp_and (wp_and idles (drain_drained "control" .control w₂)) (drain_control_keeps h₂)) ?_ fun _ _ h => h.2
  rintro done w₃ ⟨⟨⟨trip₃, idle⟩, drained⟩, h₃, jammed⟩
  rw [wp_when]
  refine ⟨fun hdone => ?_, fun refusal => ⟨h₃, fun _ => .inl (jammed (by simpa using refusal))⟩⟩
  rw [wp_bind, wp_router]
  have flushing : Note.flushing k ∈ w₃.history := (trip₂.goes.history.trans trip₃.goes.history).subset (by simp [hw₁])
  have start : Out k w₀ authorized blocked w₃ ∨ Fine k w₀ authorized blocked w₃ ∧
      ∀ e ∈ ([] : List (String × Subscription η)), authorized e.1 = true → (w₃.routers k).pending e.1 = [] :=
    h₃.state.imp id fun fine => ⟨fine, by simp⟩
  refine wp_mono (flushStreamsWith_done keeps sends roams _ h₃ flushing (idle hdone) [] rfl start) ?_ fun _ _ h => h
  exact fun _ _ h => ⟨h.1, fun within => h.2 (drained.within h₃.sane (within₂ within))⟩

end Nested

/-- Any depth keeps the invariant, and one that is enough sends what can be sent. -/
theorem flushDepth_done (n : Nat) (h : During k w₀ authorized blocked w) :
    wp (flushDepth env k n)
      (fun _ w' => During k w₀ authorized blocked w' ∧ (Within k n w → Done k w₀ authorized blocked w'))
      (fun _ => During k w₀ authorized blocked) w := by
  induction n generalizing w with
  | zero =>
    refine ⟨h, fun within => ?_⟩
    have deep := within.depth
    rw [SessionRouter.depth_eq] at deep
    omega
  | succ n ih =>
    refine flushWith_done (fun w h => ?_) (fun w h within => ?_) (flushDepth_walks (permits_any env) k n)
      (fun w within => flushDepth_alike 0 within) h
    · exact wp_mono (ih h) (fun _ _ h => h.1) fun _ _ h => h
    · exact wp_mono (ih h) (fun _ _ h => h.2 within) fun _ _ _ => trivial

/-- A flush of an open router sends everything that is not behind something blocked, and
nothing else changes. -/
theorem flush_done (sane : w₀.Sane) (born : k < w₀.born) (run : (flush env k).exec w₀ = (.ok (), w')) :
    During k w₀ authorized blocked w' ∧ Done k w₀ authorized blocked w' := by
  have start : During k w₀ authorized blocked w₀ := ⟨sane, born, List.prefix_rfl, .inr ⟨rfl, fun _ _ => .inl rfl⟩⟩
  rw [flush_exec] at run
  have done := of_wp_ok (flushDepth_done (w₀.routers k).depth start) run
  exact ⟨done.1, done.2 ⟨sane, le_refl _⟩⟩

end Invariant

/-! ## One channel and the other -/

/-- Every ready subscription that the hooks pass and whose channel is not the blocked one
has nothing queued. -/
def Delivered (authorized : String → Bool) (blocked : Channel) (r : SessionRouter η) : Prop :=
  ∀ stream sub, r.subscriptions.get? stream = some sub → authorized stream = true → sub.ready = true →
    sub.channel ≠ blocked → r.pending stream = []

/-- No such subscription with something queued was made after one that the hooks pass and
that has something queued for the blocked channel. -/
def Unobstructed (authorized : String → Bool) (blocked : Channel) (r : SessionRouter η) : Prop :=
  r.subscriptions.entries.Pairwise fun b e =>
    authorized b.1 = true → b.2.channel = blocked → r.pending b.1 ≠ [] →
      authorized e.1 = true → e.2.ready = true → e.2.channel ≠ blocked → r.pending e.1 = []

/-- What is sent on a channel that accepts everything, while another refuses everything,
depends on the order of the subscriptions. -/
theorem flush_delivers_iff (numbers : NumberText) (guard : CommandGuard) (media : MediaService) (unused : guard.handles = .empty)
    {w₀ : World η} (reached : Goes .any (World.start numbers guard media) w₀) {k : Nat} (isOpen : (w₀.routers k).closed = false)
    (env : Env η) {w' : World η} (flushed : (flush env k).exec w₀ = (.ok (), w')) (stays : (w'.routers k).closed = false)
    {notes : List Note} (history : w'.history = w₀.history ++ notes) {authorized : String → Bool} {blocked : Channel}
    (blocking : Blocking k authorized blocked (w₀.routers k) notes) :
    Delivered authorized blocked (w'.routers k) ↔ Unobstructed authorized blocked (w₀.routers k) := by
  have sane : w₀.Sane := reached.sane (start_sane numbers media unused)
  obtain ⟨during, done⟩ := @flush_done η env k w' w₀ authorized blocked sane (sane.born isOpen) flushed
  have inside : ¬Out k w₀ authorized blocked w' := by
    rintro (illegal | closed)
    · exact illegal ⟨notes, history, blocking⟩
    · exact absurd (stays.symm.trans closed) (by simp)
  have fine := during.state.resolve_left inside
  have done := done.resolve_left inside
  constructor
  · intro delivered
    refine List.pairwise_iff_forall_sublist.2 fun {b e} order first channel queued passes ready other => ?_
    have order : [b, e].Sublist ((w₀.routers k).passed authorized) := by
      have kept := order.filter fun e => authorized e.1
      rwa [List.filter_cons_of_pos (by exact first), List.filter_cons_of_pos (by exact passes), List.filter_nil] at kept
    have mem : e ∈ (w₀.routers k).passed authorized := order.subset (by simp)
    have found : (w'.routers k).subscriptions.get? e.1 = some e.2 := by
      rw [← fine.passed] at mem
      exact Table.mem_entries_iff.1 (List.mem_of_mem_filter mem)
    have sent := delivered e.1 e.2 found passes ready other
    rcases fine.pending e mem with same | ⟨⟨-, front⟩, -⟩
    · exact same ▸ sent
    · exact absurd ⟨b, order, channel, queued⟩ front
  · intro unobstructed stream sub found passes ready other
    have mem : (stream, sub) ∈ (w₀.routers k).passed authorized := by
      rw [← fine.passed]
      exact List.mem_filter.2 ⟨Table.mem_entries_iff.2 found, passes⟩
    by_cases behind : Behind authorized blocked (w₀.routers k) (stream, sub)
    · obtain ⟨b, order, channel, queued⟩ := behind
      have first : authorized b.1 = true := (List.mem_filter.1 (order.subset List.mem_cons_self)).2
      have empty := List.pairwise_iff_forall_sublist.1 unobstructed (order.trans List.filter_sublist)
        first channel queued passes ready other
      exact (fine.pending _ mem).elim (fun same => same.trans empty) And.right
    · exact done _ mem other behind

/-! ### A reliable topic in front of a realtime one -/

/-- A topic in the other delivery class. -/
def realtimeTopic (name : String) : TopicBinding :=
  { plainTopic name .rosToWeb none with delivery := .realtime, queue := ⟨.latest, 1⟩, fifo_iff := by decide, latest_one := by decide }

/-- The transport refuses what it is given when `refuses` says so. -/
def Env.refusing (refuses : Nat → Bool) : Env Json := { Env.calm 0 with send := fun n => !refuses n }

/-- A peer subscribes to two topics, whose samples then wait for the transport. -/
def twoTopics (first second : TopicBinding) : World Json :=
  smallBridge.run [(.calm 0, .construct (smallOptions [first, second])),
    (.calm 0, .receive 0 "ros.control.v1" (envelope "hello" [])),
    (.calm 0, .receive 0 "ros.control.v1" (envelope "subscribe" [("id", "1"), ("topic", first.publicName)])),
    (.calm 0, .receive 0 "ros.control.v1" (envelope "subscribe" [("id", "2"), ("topic", second.publicName)])),
    (.calm 0, .receive 0 "ros.control.v1" (envelope "ready" [("stream_id", "g:1:1")])),
    (.calm 0, .receive 0 "ros.control.v1" (envelope "ready" [("stream_id", "g:1:2")])),
    (.refusing fun _ => true, .sample 0 "g:1:1" (.number (some 3))),
    (.refusing fun _ => true, .sample 0 "g:1:2" (.number (some 4)))]

theorem twoTopics_reached (first second : TopicBinding) : Goes .any smallBridge (twoTopics first second) :=
  run_goes_any (start_sane plainNumbers noMedia rfl) _

/-- Whether a note is one of a flush in which one channel refuses everything. -/
def Note.fits (k : Nat) (authorized : String → Bool) (blocked : Channel) (r : SessionRouter η) : Note → Bool
  | .refused j stream => j ≠ k ∨ authorized stream = false
  | .handed j stream ok => j ≠ k ∨ if stream = "control" then ok else
      authorized stream ∧ ∀ sub ∈ r.subscriptions.get? stream, ok = true ↔ sub.channel ≠ blocked
  | _ => true

theorem Blocking.of_fits {authorized : String → Bool} {blocked : Channel} {r : SessionRouter η} {notes : List Note}
    (control : r.subscriptions.get? "control" = none)
    (h : ∀ note ∈ notes, note.fits k authorized blocked r = true) : Blocking k authorized blocked r notes where
  refused stream mem := by simpa [Note.fits] using h _ mem
  served stream ok mem other := by
    have fits := h _ mem
    simp only [Note.fits, other, if_false] at fits
    have fits := (of_decide_eq_true fits).resolve_left fun apart => apart rfl
    exact (of_decide_eq_true fits).1
  control ok mem := by simpa [Note.fits] using h _ mem
  data stream sub ok mem found := by
    have fits := h _ mem
    have other : stream ≠ "control" := by
      rintro rfl
      cases control.symm.trans found
    simp only [Note.fits, other, if_false] at fits
    have fits := (of_decide_eq_true fits).resolve_left fun apart => apart rfl
    exact (of_decide_eq_true fits).2 sub found

theorem flush_notes (env : Env η) {w₀ : World η} (sane : w₀.Sane) :
    ((flush env k).after w₀).history = w₀.history ++ ((flush env k).after w₀).history.drop w₀.history.length := by
  have walks : Roams .any (flush env k) := flush_walks (permits_any env) k
  have goes : Goes .any w₀ ((flush env k).after w₀) :=
    after_of_wp (P := fun w' => Goes .any w₀ w') (wp_mono (walks w₀ sane) (fun _ _ h => h.1.goes) fun _ _ h => h.goes)
  exact (List.prefix_iff_eq_append.1 (Goes.history goes)).symm

/-- Router 0 stays open during a flush in which all hooks pass and one channel refuses
everything. -/
structure Flushes (env : Env Json) (blocked : Channel) (w w' : World Json) : Prop where
  reached : Goes .any smallBridge w
  isOpen : (w.routers 0).closed = false
  flushed : (flush env 0).exec w = (.ok (), w')
  stays : (w'.routers 0).closed = false
  history : w'.history = w.history ++ w'.history.drop w.history.length
  blocking : Blocking 0 (fun _ => true) blocked (w.routers 0) (w'.history.drop w.history.length)

/-- The same, as a check. -/
abbrev Fitting (env : Env Json) (blocked : Channel) (w : World Json) : Prop :=
  (w.routers 0).closed = false ∧ (w.routers 0).subscriptions.get? "control" = none ∧ ((flush env 0).exec w).1 = .ok () ∧
    (((flush env 0).after w).routers 0).closed = false ∧
    ∀ note ∈ ((flush env 0).after w).history.drop w.history.length, note.fits 0 (fun _ => true) blocked (w.routers 0) = true

theorem Flushes.of_fitting {env : Env Json} {blocked : Channel} {w : World Json} (reached : Goes .any smallBridge w)
    (h : Fitting env blocked w) :
    Flushes env blocked w ((flush env 0).after w) where
  reached := reached
  isOpen := h.1
  flushed := exec_of_fst h.2.2.1
  stays := h.2.2.2.1
  history := flush_notes env (reached.sane (start_sane plainNumbers noMedia rfl))
  blocking := .of_fits h.2.1 h.2.2.2.2

/-- A reliable topic in front of a realtime one. -/
def reliableFirst : World Json := twoTopics (plainTopic "/map" .rosToWeb none) (realtimeTopic "/odom")

/-- Only the reliable channel refuses what it is offered, and the realtime sample behind
it stays queued. -/
theorem flush_obstructed : ∃ w', Flushes (.refusing fun n => n = reliableFirst.tick + 1) .reliable reliableFirst w' ∧
    ¬Delivered (fun _ => true) .reliable (w'.routers 0) := by
  set env := Env.refusing fun n => n = reliableFirst.tick + 1 with henv
  have run : Fitting env .reliable reliableFirst ∧
      ((((flush env 0).after reliableFirst).routers 0).subscriptions.get? "g:1:2").any
        (fun sub => sub.ready ∧ sub.channel ≠ .reliable) = true ∧
      (((flush env 0).after reliableFirst).routers 0).pending "g:1:2" ≠ [] := by decide +kernel
  obtain ⟨fits, ready, waiting⟩ := run
  obtain ⟨sub, found, ready⟩ := (Option.any_eq_true _ _).1 ready
  refine ⟨_, .of_fitting (twoTopics_reached _ _) fits, fun delivered => ?_⟩
  exact waiting (delivered "g:1:2" sub found rfl (of_decide_eq_true ready).1 (of_decide_eq_true ready).2)

/-- A realtime topic in front of a reliable one. -/
def realtimeFirst : World Json := twoTopics (realtimeTopic "/odom") (plainTopic "/map" .rosToWeb none)

/-- Only the reliable channel refuses, and the realtime sample is sent. -/
theorem flush_delivers_realtime :
    Delivered (fun _ => true) .reliable (((flush (.refusing fun n => n = realtimeFirst.tick + 3) 0).after realtimeFirst).routers 0) := by
  set env := Env.refusing fun n => n = realtimeFirst.tick + 3 with henv
  have run : Fitting env .reliable realtimeFirst ∧ Unobstructed (fun _ => true) .reliable (realtimeFirst.routers 0) := by
    unfold Unobstructed
    decide +kernel
  have h : Flushes env .reliable realtimeFirst _ := .of_fitting (twoTopics_reached _ _) run.1
  exact (flush_delivers_iff plainNumbers smallGuard noMedia rfl h.reached h.isOpen env h.flushed h.stays h.history h.blocking).2 run.2

end RosBridge.Router
