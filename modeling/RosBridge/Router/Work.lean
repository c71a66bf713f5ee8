import RosBridge.Router.Walk
import RosBridge.Session.Exclusive
/-!
# Requests take steps only

What `Router.Walk` says of flushes and samples, for control operations. The
registration of a subscription and its response are one step, so between the two an
operation is `Pending`.
-/

namespace RosBridge.Router

open Lib Prog Session Config Relation CommandGuard

variable {η α : Type} {allow : Allow} {env : Env η}

/-! ## The media plane -/

/-- The code of a source takes steps: its viewers' callbacks do. -/
theorem mediaPort_preserves (permits : Permits allow env) (track : String) (tick : Nat) {w : World η} (sane : w.Sane) :
    (mediaPort env track tick).Preserves fun w' => Trip allow none w w' where
  put _ _ trip := trip.trans (.elapsed _ _ _)
  told v state _ trip :=
    after_of_wp (wp_mono ((viewerState_ends permits v.1 v.2 state).after trip sane) (fun _ _ h => h) (fun _ _ h => h.1))

theorem onSource_walks (track : String) (f : Media.Port (World η) ViewerId → World η → World η)
    (permits : Permits allow env) (kept : ∀ (port : Media.Port (World η) ViewerId) (P : World η → Prop) w, port.Preserves P →
      P w → P (f port w)) : Roams allow (onSource env track f) := by
  intro w sane
  have after : Trip allow none w (f (mediaPort env track w.tick) { w with tick := w.tick + 1 }) :=
    kept _ _ _ (mediaPort_preserves permits track w.tick sane) (.ticked w _)
  exact ⟨after, trivial⟩

theorem source_walks (loose : Option Nat) (track : String) (w : World η) :
    Walks allow loose (source track) w fun _ w' => w = w' ∧ track ∈ w.media.tracks := by
  simp only [Walks, source, wp_bind, wp_get, wp_throwIf, wp_pure, not_or, not_not]
  exact ⟨fun _ => .refl w, fun h => ⟨.refl w, trivial, h.1⟩⟩

theorem attach_walks (permits : Permits allow env) (track : String) (viewer : ViewerId) (w : World η) (sane : w.Sane) :
    Walks allow none (attach env track viewer) w fun _ w' => track ∈ w'.media.tracks := by
  refine (source_walks none track w).bind ?_
  rintro source _ _ ⟨rfl, known⟩
  refine (Walks.get (Q := fun _ w' => w = w') rfl).bind ?_
  rintro _ _ _ rfl
  refine (Walks.throwIf (Q := fun _ w' => w = w') _ _ fun _ => rfl).bind ?_
  rintro _ _ _ rfl
  refine (Walks.throwIf (Q := fun _ w' => w = w') _ _ fun _ => rfl).bind ?_
  rintro _ _ _ rfl
  refine (onSource_walks track _ permits (fun port P w h => h.add viewer) w sane).mono fun _ w' trip _ => ?_
  rwa [trip.goes.tracks]

theorem videoOf_walks (loose : Option Nat) (k : Nat) (w : World η) :
    Walks allow loose (videoOf k) w fun v w' => w = w' ∧ (w.routers k).video = some v := by
  simp only [Walks, videoOf, wp_bind, wp_router]
  split
  · exact .refl w
  · next v video => exact ⟨.refl w, rfl, video⟩

theorem bind_walks (k : Nat) (track : String) (w : World η) :
    Walks allow none (bind k track) w fun _ _ => True := by
  refine (videoOf_walks none k w).bind ?_
  rintro v _ _ ⟨rfl, video⟩
  split
  · exact .pure _ trivial
  next new =>
  refine (Walks.throwIf (Q := fun _ w' => w = w') _ _ fun _ => rfl).bind ?_
  rintro _ _ _ rfl
  refine (Walks.get (Q := fun seen w' => w = w' ∧ w = seen) ⟨rfl, rfl⟩).bind ?_
  rintro _ _ _ ⟨rfl, rfl⟩
  dsimp only
  split
  · exact .throw _
  next slot found =>
  refine Walks.bind (Q := fun _ _ => True) ?_ fun _ _ _ _ => .pure _ trivial
  have fits : w.media.Fits track slot := by
    have here := List.find?_some found
    rw [Bool.and_eq_true, decide_eq_true_eq] at here
    obtain ⟨idc, wanted⟩ := Option.isSome_iff_exists.1 here.1
    exact ⟨idc, wanted, here.2.trans wanted⟩
  have free := List.find?_eq_getElem?_findIdx.symm.trans found
  exact ⟨.move (.bound v track _ slot video new free fits) fun _ s => s.of_streams rfl rfl, trivial⟩

theorem videoSubscribe_walks (permits : Permits allow env) (k : Nat) (wire : Wire) (id : String) :
    Roams allow (videoSubscribe env k wire id) := by
  intro w sane
  refine (Walks.ofExcept (Q := fun _ w' => w = w') _ fun _ _ => rfl).bind ?_
  rintro _ _ _ rfl
  refine (Walks.ofExcept (Q := fun _ w' => w = w') _ fun _ _ => rfl).bind ?_
  rintro track _ _ rfl
  refine Walks.bind (Q := fun _ _ => True) ?_ fun ok w₁ trip₁ _ => ?_
  · exact Walks.of_hooked (wp_mono (hook_asked permits env.videoAuthorize permits.videoAuthorize w sane)
      (fun _ _ h => ⟨h.toHooked, trivial⟩) (fun _ _ h => h.toHooked))
  have sane := trip₁.sane sane
  refine (Walks.throwIf (Q := fun _ w' => w₁ = w') _ _ fun _ => rfl).bind ?_
  rintro _ _ _ rfl
  refine (bind_walks k track w₁).bind fun entry w₂ trip₂ _ => ?_
  have sane := trip₂.sane sane
  refine Walks.bind (Q := fun _ _ => True) (Walks.when (fun _ => ?_) fun _ => trivial) fun _ _ _ _ => .pure _ trivial
  refine (attach_walks permits track (k, track) w₂ sane).bind fun _ w₃ _ known => ?_
  exact ⟨.flag w₃ k track _ (by intro _; rfl) fun _ _ => .inr known, trivial⟩

theorem videoUnsubscribe_walks (k : Nat) (wire : Wire) (id : String) :
    Roams allow (videoUnsubscribe env k wire id) := by
  intro w sane
  refine (Walks.ofExcept (Q := fun _ w' => w = w') _ fun _ _ => rfl).bind ?_
  rintro _ _ _ rfl
  refine (Walks.ofExcept (Q := fun _ w' => w = w') _ fun _ _ => rfl).bind ?_
  rintro mid _ _ rfl
  refine (videoOf_walks none k w).bind ?_
  rintro v _ _ ⟨rfl, video⟩
  split
  · exact .throw _
  · exact ((release_walks k _).walks sane).bind fun _ _ _ _ => .pure _ trivial

theorem videoOperation_walks (permits : Permits allow env) (k : Nat) (wire : Wire) (id : String) :
    Roams allow (videoOperation env k wire id) := by
  intro w sane
  unfold videoOperation
  refine Walks.ite (fun _ => videoSubscribe_walks permits k wire id w sane) fun _ => ?_
  exact Walks.ite (fun _ => videoUnsubscribe_walks k wire id w sane) fun _ => .throw _

/-! ## Requests -/

/-- The subscription a request asked for was registered, and its response has not been
queued. -/
structure Pending (k : Nat) (wire : Wire) (id : String) (response : Envelope) (w w' : World η) : Prop where
  pending : ∃ entry tick, operationOf wire = "subscribe" ∧ (w.routers k).closed = false ∧ textField wire "topic" = .ok entry.binding.publicName ∧
    (w.routers k).entries.get? entry.binding.publicName = some entry ∧
    (w.routers k).queue.streams.get? (w.routers k).nextStream = none ∧
    (w.routers k).handles < (w.routers k).limits.maxHandles ∧
    response = .subscribed id (w.routers k).nextStream (w.routers k).epoch entry.schemaId ∧
    w' = { w.setRouter k ((w.routers k).subscribe entry) with
      listeners := w.listeners ++ [(k, (w.routers k).nextStream)], tick := tick }

section Works

variable {k : Nat} {wire : Wire} {id : String} {w : World η}

variable (allow k wire id) in
/-- Walks that may leave the subscription of a request pending. -/
inductive Worked (w : World η) (response : Envelope) (w' : World η) : Prop where
  | done (trip : Trip allow none w w')
  | pending (w₁ : World η) (trip : Trip allow none w w₁) (same : w₁.routers k = w.routers k)
      (pending : Pending k wire id response w₁ w')

variable (allow k wire id) in
/-- Code that works from `w`. -/
def Works (m : Code η Envelope) (w : World η) : Prop :=
  wp m (Worked allow k wire id w) (fun _ w' => Trip allow none w w') w

theorem Walks.works {m : Code η Envelope} {Q : Envelope → World η → Prop} (h : Walks allow none m w Q) :
    Works allow k wire id m w :=
  wp_mono h (fun _ _ h => .done h.1) (fun _ _ h => h)

theorem Walks.then_works {m : Code η α} {f : α → Code η Envelope} {Q : α → World η → Prop} (hm : Walks allow none m w Q)
    (hf : ∀ a w', Trip allow none w w' → Q a w' → w'.routers k = w.routers k ∧ Works allow k wire id (f a) w') :
    Works allow k wire id (m >>= f) w := by
  unfold Works
  rw [wp_bind]
  refine wp_mono hm (fun a w₁ h => ?_) (fun _ _ h => h)
  obtain ⟨same₁, works⟩ := hf a w₁ h.1 h.2
  refine wp_mono works (fun _ w₂ h' => ?_) (fun _ _ h' => h.1.trans h')
  cases h' with
  | done trip => exact .done (h.1.trans trip)
  | pending w₀ trip same pending => exact .pending w₀ (h.1.trans trip) (same.trans same₁) pending

end Works

/-- An identifier was issued. -/
theorem Trip.issued (w : World η) (k : Nat) :
    Trip allow none w (w.setRouter k { w.routers k with nextId := (w.routers k).nextId + 1 }) :=
  .move .issued fun _ s => s.of_streams rfl rfl

theorem subscribe_works (k : Nat) (entry : RouterBinding η) (wire : Wire) (id : String) (w : World η) (sane : w.Sane)
    (asked : operationOf wire = "subscribe") (isOpen : (w.routers k).closed = false)
    (named : textField wire "topic" = .ok entry.binding.publicName)
    (found : (w.routers k).entries.get? entry.binding.publicName = some entry)
    (room : (w.routers k).handles < (w.routers k).limits.maxHandles) :
    Works allow k wire id (subscribe env k entry id) w := by
  have step : Trip allow none w _ := .issued w k
  simp only [Works, subscribe, issueId, wp_bind, wp_update, wp_router, wp_pure, wp_onQueue, World.setRouter_self,
    World.setRouter_setRouter]
  refine wp_mono (DeliveryQueue.register_spec _ (streamPolicy entry) entry.binding.queue.maxMessages _) ?_ ?_
  · rintro _ _ ⟨absent, rfl⟩
    rw [wp_ask]
    split
    · simp only [wp_bind, wp_onQueue, World.setRouter_self, wp_throw]
      refine wp_mono (DeliveryQueue.closeStream_register absent _ _) (fun _ _ h => ?_) fun _ _ h => h.elim
      rw [h]
      refine (step.trans (.ticked _ (w.tick + 1))).trans (.of_eq (World.eq_of (fun j => ?_) rfl))
      by_cases e : j = k <;> simp [World.setRouter, e]
    · next natives _ =>
      simp only [wp_bind, wp_modify]
      refine wp_mono (samples_absent k _ natives _ ?_) ?_ fun _ _ h => h.elim
      · simp only [World.setRouter_self]
        by_contra there
        obtain ⟨sub, hsub⟩ := Option.ne_none_iff_exists'.1 there
        obtain ⟨n, bound, e⟩ := (sane.routers k).issued _ sub hsub
        have := idText_inj e
        omega
      rintro _ _ rfl
      simp only [wp_update, wp_router, World.setRouter_self]
      refine .pending w (.refl w) rfl ⟨entry, w.tick + 1, asked, isOpen, named, found, absent, room, rfl, ?_⟩
      refine World.eq_of (fun j => ?_) rfl
      by_cases e : j = k <;> simp [World.setRouter, SessionRouter.subscribe, SessionRouter.nextStream, e]
  · rintro _ _ rfl
    exact step

/-- The guard issues an identifier. -/
theorem Hooked.issue (w : World η) : Hooked allow w { w with guard := { w.guard with nextId := w.guard.nextId + 1 } } := by
  have tended : Tended w.guard { w.guard with nextId := w.guard.nextId + 1 } .quiet [] :=
    ⟨.same, .quiet, rfl, Nat.le_succ _, rfl, rfl, rfl⟩
  have hooked : Hooked allow w _ := Hooked.tended tended (by simp)
  simpa using hooked

/-- The next handle of the guard is not in use. -/
theorem World.Sane.unissued {w : World η} (sane : w.Sane) :
    w.guard.handles.get? (idText w.guard.prefixId (w.guard.nextId + 1)) = none := by
  by_contra there
  obtain ⟨st, hst⟩ := Option.ne_none_iff_exists'.1 there
  obtain ⟨-, n, bound, e⟩ := sane.handles _ st hst
  have := idText_inj e
  omega

theorem advertise_walks (permits : Permits allow env) (k : Nat) (entry : RouterBinding η) (requestId : String) (w : World η)
    (sane : w.Sane) (isOpen : (w.routers k).closed = false)
    (found : (w.routers k).entries.get? entry.binding.publicName = some entry)
    (direction : entry.binding.direction = .webToRos) (room : (w.routers k).handles < (w.routers k).limits.maxHandles) :
    Walks allow none (advertise env k entry requestId) w fun _ _ => True := by
  simp only [Walks, advertise, publisherHandle, wp_bind, wp_router]
  split
  · next guard guarded =>
    simp only [guardOpenHandle, wp_bind, wp_router, wp_onGuard]
    refine wp_mono (openHandleBegin_spec _ _ _ w.guard) ?_ fun _ _ e => .of_eq (by rw [e])
    rintro ⟨identity, leaseMs⟩ _ ⟨owner, topic, issued, -, -, rfl⟩
    have begun : Hooked allow w _ := .issue w
    simp only [wp_note, wp_update, wp_pure]
    refine wp_mono (guardAuthorize_asked permits _ (begun.trip.sane sane)) (fun _ w₂ h₂ => ?_) fun _ _ h => begun.trip.trans h.trip
    have h : Hooked allow w w₂ := begun.trans h₂.toHooked
    refine wp_mono (openHandleRest_spec identity leaseMs w₂.guard) ?_ ?_
    · rintro _ _ ⟨rfl, session, capacity, rfl⟩
      have step : Step allow w₂ _ := .handleOpened k entry identity leaseMs (w.guard.nextId + 1)
        (by rw [h.entries]; exact found) direction (by simp [guarded]) (by rw [h.sessionId]; exact owner) topic
        (by rw [h.prefixId]; exact issued) h₂.nextId (h₂.handles _ (by rw [issued]; exact sane.unissued)) session capacity
        fun isOpen => by rw [h.router_eq isOpen]; exact room
      refine ⟨h.trip.trans (.step step (fun _ h => World.setRouter_ne _ _ h) (fun _ s => ?_) rfl), trivial⟩
      rw [World.setRouter_self]
      exact s.of_streams rfl rfl
    · rintro _ _ rfl
      exact h.trip
  · next unguarded =>
    simp only [issueId, wp_bind, wp_update, wp_router, wp_pure, World.setRouter_self, World.setRouter_setRouter]
    have move : Trip allow none w _ :=
      .move (.advertised entry isOpen found direction unguarded room) fun _ s => s.of_streams rfl rfl
    simpa [unguarded, SessionRouter.advertise, SessionRouter.nextStream] using move

theorem openOperation_works (permits : Permits allow env) (k : Nat) (wire : Wire) (id : String) (operation : Operation)
    (asked : operation = .subscribe → operationOf wire = "subscribe") (w : World η) (sane : w.Sane) :
    Works allow k wire id (openOperation env k wire id operation) w := by
  refine Walks.then_works (Q := fun _ w' => w = w') (.ofExcept _ fun _ _ => rfl) ?_
  rintro _ _ _ rfl
  refine ⟨rfl, Walks.then_works (Q := fun topic w' => w = w' ∧ textField wire "topic" = .ok topic) (.ofExcept _ fun _ e => ⟨rfl, e⟩) ?_⟩
  rintro topic _ _ ⟨rfl, text⟩
  refine ⟨rfl, Walks.then_works (Q := fun e w' => Entered allow k topic operation w e w') ?_ fun e w₁ trip entered => ?_⟩
  · exact .of_hooked (wp_mono (entry_entered permits k topic operation w sane) (fun _ _ h => ⟨h.toHooked, h⟩) fun _ _ h => h)
  refine ⟨entered.same, Walks.then_works (Q := fun r w' => w₁ = w' ∧ r = w₁.routers k) (.router k ⟨rfl, rfl⟩) ?_⟩
  rintro r _ _ ⟨rfl, rfl⟩
  refine ⟨rfl, Walks.then_works (Q := fun _ w' => w₁ = w' ∧ (w₁.routers k).handles < (w₁.routers k).limits.maxHandles)
    (.throwIf _ _ fun room => ⟨rfl, not_le.1 room⟩) ?_⟩
  rintro _ _ _ ⟨rfl, room⟩
  refine ⟨rfl, ?_⟩
  obtain rfl := (sane.routers k).named topic e entered.found
  have found := entered.found
  rw [← entered.same] at found
  have isOpen := entered.isOpen
  rw [← entered.same] at isOpen
  cases operation with
  | subscribe => exact subscribe_works k e wire id w₁ (trip.sane sane) (asked rfl) isOpen text found room
  | publish =>
    exact (advertise_walks permits k e id w₁ (trip.sane sane) isOpen found entered.direction room).works

theorem unsubscribeOperation_walks (permits : Permits allow env) (k : Nat) (wire : Wire) (id : String) :
    Roams allow (unsubscribeOperation env k wire id) := by
  intro w sane
  refine (Walks.ofExcept (Q := fun _ w' => w = w') _ fun _ _ => rfl).bind ?_
  rintro _ _ _ rfl
  refine (Walks.ofExcept (Q := fun _ w' => w = w') _ fun _ _ => rfl).bind ?_
  rintro stream _ _ rfl
  have same : ({ w with history := w.history ++ [] } : World η) = w := by simp
  have removed : ∀ w', Removed allow k stream w w' → Trip allow none w w' :=
    fun w' h => Removed.trip sane (.inl rfl) (by rwa [same])
  refine Walks.bind (Q := fun _ w' => .lost stream ∈ (w'.routers k).trace) ?_ fun _ w₁ _ lost => ?_
  · refine wp_mono (removeSubscription_spec permits k stream w sane.registered) (fun _ w' h => ⟨removed w' h, ?_⟩) ?_
    · obtain ⟨sub, q, listeners, tick, -, -, -, -, rfl⟩ := h
      simp [SessionRouter.unsubscribe]
    · rintro _ _ (⟨h, -⟩ | ⟨rfl, -⟩)
      · exact removed _ h
      · exact .refl _
  · simp only [Walks, wp_bind, wp_mark, wp_pure]
    exact ⟨.move (.unsubscribed stream lost) fun _ s => s.of_streams rfl rfl, trivial⟩

/-- The handle that `ownedHandle` returns is the router's, and its binding may publish. -/
theorem ownedHandle_walks (permits : Permits allow env) (k : Nat) (wire : Wire) (w : World η) (sane : w.Sane) :
    Walks allow none (ownedHandle env k wire) w fun owned w' =>
      (w'.routers k).publishers.get? owned.1 = some owned.2 ∧ (w'.routers k).closed = false := by
  refine (Walks.ofExcept (Q := fun _ w' => w = w') _ fun _ _ => rfl).bind ?_
  rintro _ _ _ rfl
  refine (Walks.ofExcept (Q := fun _ w' => w = w') _ fun _ _ => rfl).bind ?_
  rintro handle _ _ rfl
  refine Walks.bind (Q := fun p w' => w = w' ∧ (w.routers k).publishers.get? handle = some p) ?_ ?_
  · simp only [Walks, publisher, wp_bind, wp_router]
    split
    · exact .refl w
    · next p found => exact ⟨.refl w, rfl, found⟩
  rintro p _ _ ⟨rfl, found⟩
  refine Walks.bind (Q := fun _ w' => (w'.routers k).publishers.get? handle = some p ∧ (w'.routers k).closed = false) ?_
    fun _ _ _ h => .pure _ h
  refine .of_hooked (wp_mono (entry_entered permits k _ .publish w sane) (fun e w₁ entered => ⟨entered.toHooked, ?_⟩)
    fun _ _ h => h)
  rw [entered.same]
  exact ⟨found, entered.isOpen⟩

theorem guardArm_walks (permits : Permits allow env) (sessionId handle : String) :
    Roams allow (guardArm env sessionId handle) := by
  intro w sane
  refine Walks.bind (Q := fun _ w' => w = w') ?_ ?_
  · simp only [Walks, wp_onGuard]
    exact wp_mono (armBegin_spec sessionId handle w.guard) (fun _ _ e => ⟨.of_eq (by rw [e]), by rw [e]⟩)
      fun _ _ e => .of_eq (by rw [e])
  rintro _ _ _ rfl
  refine Walks.bind (Q := fun _ _ => True) ?_ fun _ w₁ _ _ => ?_
  · exact .of_hooked (wp_mono (guardAuthorize_asked permits w sane) (fun _ _ h => ⟨h.toHooked, trivial⟩) fun _ _ h => h.toHooked)
  refine Walks.bind (Q := fun _ _ => True) (.ask fun _ => trivial) fun clock w₂ _ _ => ?_
  exact .of_hooked (wp_mono (armFinish_hooked sessionId handle clock w₂) (fun _ _ h => ⟨h.1, trivial⟩) fun _ _ h => h.1)

theorem armOperation_walks (permits : Permits allow env) (k : Nat) (wire : Wire) (id : String) :
    Roams allow (armOperation env k wire id) := by
  intro w sane
  refine (ownedHandle_walks permits k wire w sane).bind ?_
  rintro ⟨handle, publisher⟩ w₁ trip₁ -
  refine (Walks.throwIf (Q := fun _ w' => w₁ = w') _ _ fun _ => rfl).bind ?_
  rintro _ _ _ rfl
  refine (Walks.router (Q := fun _ w' => w₁ = w') k rfl).bind ?_
  rintro r _ _ rfl
  exact (guardArm_walks permits _ handle w₁ (trip₁.sane sane)).bind fun _ _ _ _ => .pure _ trivial

theorem unadvertiseOperation_walks (permits : Permits allow env) (k : Nat) (wire : Wire) (id : String) :
    Roams allow (unadvertiseOperation env k wire id) := by
  intro w sane
  refine (ownedHandle_walks permits k wire w sane).bind ?_
  rintro ⟨handle, p⟩ w₁ trip₁ ⟨found, isOpen⟩
  simp only [Walks, wp_bind, wp_router, wp_when, wp_update, wp_pure]
  refine ⟨fun guarded => ?_, fun unguarded => ⟨.move (.unadvertised handle p found (by simpa using unguarded)) fun _ s => ?_, trivial⟩⟩
  · simp only [guardCloseHandle, wp_bind, wp_onGuard, wp_note]
    refine wp_mono (closeHandle_spec _ handle w₁.guard) ?_ fun _ _ e => .of_eq (by rw [e])
    rintro _ _ ⟨st, own, owner, rfl⟩
    have step : Step allow w₁ _ := .handleClosed k handle p st found guarded own owner
    refine ⟨.step step (fun _ h => World.setRouter_ne _ _ h) (fun _ s => ?_) rfl, trivial⟩
    rw [World.setRouter_self]
    exact s.of_streams rfl rfl
  · exact s.of_streams rfl rfl

theorem operation_works (permits : Permits allow env) (k : Nat) (wire : Wire) (id : String) (w : World η) (sane : w.Sane) :
    Works allow k wire id (operation env k wire id) w := by
  have router : ∀ {f : SessionRouter η → Code η Envelope}, Works allow k wire id (f (w.routers k)) w →
      Works allow k wire id (Router.router k >>= f) w := fun h => h
  have ite : ∀ {c : Prop} [Decidable c] {m n : Code η Envelope}, (c → Works allow k wire id m w) → Works allow k wire id n w →
      Works allow k wire id (if c then m else n) w := by
    intro c _ m n hm hn
    unfold Works
    rw [wp_ite]
    exact ⟨hm, fun _ => hn⟩
  unfold operation
  refine ite (fun asked => openOperation_works permits k wire id .subscribe (fun _ => asked) w sane) ?_
  refine ite (fun _ => openOperation_works permits k wire id .publish nofun w sane) ?_
  refine ite (fun _ => (unsubscribeOperation_walks permits k wire id w sane).works) (router ?_)
  refine ite (fun _ => ?_) (ite (fun _ => ?_) (ite (fun _ => ?_) ?_))
  · exact (videoOperation_walks permits k wire id w sane).works
  · exact (armOperation_walks permits k wire id w sane).works
  · exact (unadvertiseOperation_walks permits k wire id w sane).works
  · exact (Walks.throw (Q := fun _ _ => True) _).works

/-! ## What operations respond -/

/-- What the code returns satisfies `P`, wherever it is run. -/
def Answers (P : α → Prop) (m : Code η α) : Prop := ∀ w, wp m (fun a _ => P a) (fun _ _ => True) w

namespace Answers

variable {β : Type} {P : α → Prop} {m n : Code η α}

theorem pure {a : α} (h : P a) : Answers P (pure a : Code η α) := fun _ => h

theorem throw (e : String) : Answers P (throw e : Code η α) := fun _ => trivial

/-- Only the last part matters. -/
theorem bind {m : Code η β} {f : β → Code η α} (h : ∀ b, Answers P (f b)) : Answers P (m >>= f) := by
  intro w
  rw [wp_bind]
  exact wp_mono (wp_trivial m w) (fun b w' _ => h b w') fun _ _ _ => trivial

theorem ite {c : Prop} [Decidable c] (hm : Answers P m) (hn : Answers P n) : Answers P (if c then m else n) := by
  split
  · exact hm
  · exact hn

end Answers

/-- No operation responds with a sample. -/
def Plain (m : Code η Envelope) : Prop := Answers (fun e => e.stream = none) m

theorem subscribe_plain (k : Nat) (entry : RouterBinding η) (id : String) : Plain (subscribe env k entry id) := by
  refine .bind fun _ => .bind fun _ => .bind fun natives => ?_
  split
  · exact .bind fun _ => .throw _
  · exact .bind fun _ => .bind fun _ => .bind fun _ => .bind fun _ => .pure rfl

theorem openOperation_plain (k : Nat) (wire : Wire) (id : String) (operation : Operation) :
    Plain (openOperation env k wire id operation) := by
  refine .bind fun _ => .bind fun _ => .bind fun e => .bind fun _ => .bind fun _ => ?_
  cases operation with
  | subscribe => exact subscribe_plain k e id
  | publish => exact .bind fun _ => .bind fun _ => .bind fun _ => .pure rfl

theorem videoOperation_plain (k : Nat) (wire : Wire) (id : String) : Plain (videoOperation env k wire id) := by
  unfold videoOperation
  refine .ite ?_ (.ite ?_ (.throw _))
  · exact .bind fun _ => .bind fun _ => .bind fun _ => .bind fun _ => .bind fun _ => .bind fun _ => .pure rfl
  · refine .bind fun _ => .bind fun _ => .bind fun _ => ?_
    split
    · exact .throw _
    · exact .bind fun _ => .pure rfl

theorem operation_plain (k : Nat) (wire : Wire) (id : String) : Plain (operation env k wire id) := by
  refine .ite (openOperation_plain k wire id .subscribe) (.ite (openOperation_plain k wire id .publish) (.ite ?_ ?_))
  · exact .bind fun _ => .bind fun _ => .bind fun _ => .bind fun _ => .pure rfl
  · refine .bind fun _ => .ite (videoOperation_plain k wire id) (.ite ?_ (.ite ?_ (.throw _)))
    · exact .bind fun _ => .bind fun _ => .bind fun _ => .bind fun _ => .pure rfl
    · exact .bind fun _ => .bind fun _ => .bind fun _ => .bind fun _ => .pure rfl

/-! ## The cache during an operation -/

/-- Everything may happen, but responses are not cached. -/
def Allow.uncached : Allow := ⟨True, True, True, True, False, True⟩

theorem permits_uncached (env : Env η) : Permits .uncached env := ⟨.inl trivial, .inl trivial, .inl trivial⟩

/-- A cache is as it was, or it was cleared. -/
def CacheKept (c c' : RequestCache) : Prop := c' = c ∨ c' = RequestCache.clear.after c

theorem CacheKept.trans {c c' c'' : RequestCache} (h : CacheKept c c') (h' : CacheKept c' c'') : CacheKept c c'' := by
  rcases h with rfl | rfl
  · exact h'
  · rcases h' with rfl | rfl
    · exact .inr rfl
    · exact .inr rfl

theorem Control.cache {bytes : Bytes} {r r' : SessionRouter η} (c : Control r bytes r') : r'.cache = r.cache := by
  cases c with
  | queued | jammed | dead => rfl

theorem Move.cache {numbers : NumberText} {media : MediaService} {r r' : SessionRouter η}
    (m : Move numbers .uncached media r r') : r'.cache = r.cache := by
  cases m with
  | control bytes _ control => exact control.cache
  | expired t cached past => exact cached.elim
  | stored id input output t cached storable now => exact cached.elim
  | _ => rfl

theorem Turn.cache {w : World η} {k : Nat} {r : SessionRouter η} (t : Turn .uncached w k r) :
    CacheKept (w.routers k).cache r.cache := by
  cases t with
  | move _ move => exact .inl move.cache
  | subscribed entry requestId _ isOpen found free room announced =>
    cases announced with
    | announced id input t _ cached storable now control => exact cached.elim
    | large large => exact .inl rfl
  | finished => exact .inr rfl
  | _ => exact .inl rfl

theorem Goes.cache {w w' : World η} {k : Nat} (g : Goes .uncached w w') (born : k < w.born) :
    CacheKept (w.routers k).cache (w'.routers k).cache := by
  induction g with
  | refl => exact .inl rfl
  | tail before s ih =>
    refine ih.trans ?_
    rcases s.turn_of_born (born.trans_le (Goes.born before)) with same | turn
    · exact .inl (congrArg _ same)
    · exact turn.cache

/-- An operation leaves the cache alone, or the router is closed in it. -/
theorem operation_cache (k : Nat) (wire : Wire) (id : String) (w : World η) (sane : w.Sane) (born : k < w.born) :
    wp (operation env k wire id) (fun _ w' => CacheKept (w.routers k).cache (w'.routers k).cache) (fun _ _ => True) w := by
  refine wp_mono (operation_works (permits_uncached env) k wire id w sane) (fun _ w' h => ?_) fun _ _ _ => trivial
  cases h with
  | done trip => exact trip.goes.cache born
  | pending w₁ trip same pending =>
    obtain ⟨entry, tick, -, -, -, -, -, -, -, rfl⟩ := pending.pending
    have cache : CacheKept (w.routers k).cache (w₁.routers k).cache := trip.goes.cache born
    simpa [SessionRouter.subscribe] using cache

/-- What `lookup` and `reserve` have checked suffices for any response. -/
theorem CacheKept.storable {c c' : RequestCache} (h : CacheKept c c') {id input : String} {maxBytes : Nat}
    (absent : c.entries.get? id = none) (room : c.entries.size < c.maxEntries)
    (reserved : c.bytes + ((maxBytes + utf16Length input * 2 : Nat) : Int) ≤ c.maxBytes) (sound : c.Sound) (output : Bytes)
    (fits : output.byteLength ≤ maxBytes) (plain : output.envelope.stream = none) : Storable c' id input output := by
  rcases h with rfl | rfl
  · exact ⟨absent, room, by omega, plain⟩
  · have := sound.nonneg
    refine ⟨rfl, ?_, ?_, plain⟩
    · exact lt_of_le_of_lt (Nat.zero_le _) room
    · show (0 : Int) + (utf16Length input * 2 + output.byteLength) ≤ c.maxBytes
      omega

/-! ## Responses -/

/-- The response to a subscribe fits, whatever topic the request names. -/
def SessionRouter.Announces (r : SessionRouter η) (numbers : NumberText) (wire : Wire) (id : String) : Prop :=
  operationOf wire = "subscribe" → ∀ entry, textField wire "topic" = .ok entry.binding.publicName → r.entries.get? entry.binding.publicName = some entry →
    (encode numbers (.subscribed id r.nextStream r.epoch entry.schemaId)).byteLength ≤ r.maxBytes

/-- A response is encoded, cached and queued. -/
theorem answer_walks (cached : allow.cache) (k : Nat) (id input : String) (response : Envelope) (t : ℚ) (w : World η)
    (sane : w.Sane) (past : t ≤ (w.routers k).lastTime) (welcomed : (w.routers k).welcomed = true)
    (plain : response.stream = none)
    (storable : ∀ output : Bytes, output.byteLength ≤ (w.routers k).maxBytes → output.envelope.stream = none →
      Storable (w.routers k).cache id input output) :
    Walks allow (some k) (do
      let bytes ← encoded k response
      onCache k (RequestCache.store id input bytes t)
      mark k (.stored id input bytes t)
      queueControl k bytes) w fun _ _ => True := by
  refine Walks.bind (Q := fun bytes w' => w = w' ∧ bytes.envelope.stream = none ∧ bytes.byteLength ≤ (w.routers k).maxBytes) ?_ ?_
  · refine wp_mono (encoded_spec k response w) (fun bytes _ h => ⟨.of_eq h.1.symm, h.1, ?_, h.2.2⟩) fun _ _ h => .of_eq h.1.symm
    rw [h.2.1]
    exact plain
  rintro bytes _ _ ⟨rfl, plain, fits⟩
  have stored : Trip allow none w (w.setRouter k ((w.routers k).store id input bytes t)) :=
    .move (.stored id input bytes t cached (storable bytes fits plain) past welcomed) fun _ s => s.of_streams rfl rfl
  have queued : Walks allow (some k) (queueControl k bytes) (w.setRouter k ((w.routers k).store id input bytes t)) _ :=
    queueControl_walks k bytes plain _ (stored.sane sane)
  have rest := queued.mono fun _ _ _ _ => trivial
  simp only [Walks, wp_bind, wp_onCache, RequestCache.store, wp_modify, wp_mark, World.setRouter_self, World.setRouter_setRouter]
  exact wp_mono rest (fun _ _ h => ⟨stored.trans h.1, trivial⟩) fun _ _ h => stored.loosen.trans h

/-- The response to a subscribe is encoded, cached and queued: with the registration
this is one step. -/
theorem announce_walks (cached : allow.cache) {k : Nat} {wire : Wire} {id input : String} {response : Envelope} {t : ℚ}
    {w w' : World η} (sane : w.Sane) (pending : Pending k wire id response w w')
    (fits : allow.large ∨ (w.routers k).Announces w.numbers wire id) (past : t ≤ (w.routers k).lastTime)
    (welcomed : (w.routers k).welcomed = true)
    (storable : ∀ output : Bytes, output.byteLength ≤ (w.routers k).maxBytes → output.envelope.stream = none →
      Storable (w.routers k).cache id input output) :
    wp (do
      let bytes ← encoded k response
      onCache k (RequestCache.store id input bytes t)
      mark k (.stored id input bytes t)
      queueControl k bytes) (fun _ w'' => Trip allow none w w'') (fun _ w'' => Trip allow (some k) w w'') w' := by
  obtain ⟨entry, tick, asked, isOpen, text, found, free, room, rfl, rfl⟩ := pending.pending
  set envelope : Envelope := .subscribed id (w.routers k).nextStream (w.routers k).epoch entry.schemaId with henvelope
  have answered : ∀ {loose r'}, Announced w.numbers allow ((w.routers k).subscribe entry) envelope r' →
      (loose ≠ some k → (w.routers k).Settled → r'.Settled) →
      Trip allow loose w { w.setRouter k r' with listeners := w.listeners ++ [(k, (w.routers k).nextStream)], tick := tick } := by
    intro loose r' announced settled
    have step : Step allow w _ := .subscribed k entry id r' isOpen found free room announced
    refine Trip.trans (.step step (fun _ h => World.setRouter_ne w _ h) ?_ rfl) (.ticked _ tick)
    rwa [World.setRouter_self]
  rw [wp_bind]
  refine wp_mono (encoded_spec k envelope _) ?_ ?_
  · rintro bytes _ ⟨rfl, rfl, small⟩
    simp only [World.setRouter_self] at small
    have storable := storable (encode w.numbers envelope) small rfl
    have sane : (((w.routers k).subscribe entry).store id input (encode w.numbers envelope) t).Sane :=
      ((sane.routers k).subscribe found).store t storable
    simp only [wp_bind, wp_onCache, RequestCache.store, wp_modify, wp_mark, World.setRouter_self]
    refine wp_mono (queueControl_spec k (encode w.numbers envelope) _ (by rw [World.setRouter_self]; exact sane)) ?_ ?_
    · rintro _ _ ⟨r', control, live, rfl⟩
      simp only [World.setRouter_self] at control
      refine (congrArg (Trip allow none w) (World.eq_of (fun j => ?_) rfl)).mpr
        (answered (.announced id input t r' cached storable past control welcomed) fun _ _ => .inr live)
      by_cases e : j = k <;> simp [World.setRouter, e]
    · rintro _ _ (⟨r', control, rfl⟩ | ⟨-, size⟩)
      · simp only [World.setRouter_self] at control
        refine (congrArg (Trip allow (some k) w) (World.eq_of (fun j => ?_) rfl)).mpr
          (answered (.announced id input t r' cached storable past control welcomed) fun h => absurd rfl h)
        by_cases e : j = k <;> simp [World.setRouter, e]
      · have := encode_pos w.numbers envelope
        simp only [World.setRouter_self] at size
        rcases size with empty | big
        · omega
        · exact absurd small (not_le.2 big)
  · rintro _ _ ⟨rfl, big⟩
    simp only [World.setRouter_self] at big
    have large : allow.large := fits.resolve_right fun announces => absurd (announces asked entry text found) (not_le.2 big)
    refine answered (.large large) fun _ s => ?_
    rcases s with closed | live
    · exact .inl closed
    · exact .inr (SessionRouter.live_set rfl rfl live)

theorem lookup_walks (cached : allow.cache) (k : Nat) (id input : String) (t : ℚ) (w : World η)
    (past : t ≤ (w.routers k).lastTime) :
    Walks allow none (onCache k (RequestCache.lookup id input t)) w fun found w' =>
      w' = w.setRouter k { w.routers k with cache := (RequestCache.expire t).after (w.routers k).cache } ∧
        (∀ bytes, found = some bytes → ∃ i e, (w'.routers k).cache.entries.get? i = some e ∧ e.output = bytes) ∧
        (found = none → (w'.routers k).cache.entries.get? id = none ∧
          (w'.routers k).cache.entries.size < (w'.routers k).cache.maxEntries) := by
  have expired : Trip allow none w (w.setRouter k { w.routers k with cache := (RequestCache.expire t).after (w.routers k).cache }) :=
    .move (.expired t cached past) fun _ s => s.of_streams rfl rfl
  rw [Walks, wp_onCache]
  refine wp_mono (RequestCache.lookup_spec id input t _) ?_ ?_
  · rintro found _ ⟨rfl, h⟩
    rw [World.setRouter_self]
    refine ⟨expired, rfl, ?_, ?_⟩
    · rintro bytes rfl
      obtain ⟨e, here, -, same⟩ := h
      exact ⟨id, e, here, same⟩
    · rintro rfl
      exact h
  · rintro _ _ rfl
    exact expired

theorem request_walks (permits : Permits allow env) (cached : allow.cache) (k : Nat) (wire : Wire) (id : String) (w : World η)
    (sane : w.Sane) (isOpen : (w.routers k).closed = false) (welcomed : (w.routers k).welcomed = true)
    (fits : allow.large ∨ (w.routers k).Announces w.numbers wire id) :
    Walks allow (some k) (request env k wire id) w fun _ _ => True := by
  refine (Walks.get (Q := fun v w' => w = w' ∧ w = v) ⟨rfl, rfl⟩).bind ?_
  rintro _ _ _ ⟨rfl, rfl⟩
  refine (now_walks (some k) k w).bind fun t w₁ trip₁ ticking => ?_
  obtain ⟨-, -, -, ticked⟩ := ticking
  have past : t ≤ (w₁.routers k).lastTime := by rw [ticked]
  refine ((lookup_walks cached k id _ t w₁ past).loosen).bind fun found w₂ trip₂ looked => ?_
  obtain ⟨expired, known, missing⟩ := looked
  have sane₂ := trip₂.sane (trip₁.sane sane)
  cases found with
  | some bytes =>
    obtain ⟨i, e, here, rfl⟩ := known bytes rfl
    exact (queueControl_walks k _ ((sane₂.routers k).plain i e here) w₂ sane₂).mono fun _ _ _ _ => trivial
  | none =>
    obtain ⟨absent, room⟩ := missing rfl
    refine (Walks.router (Q := fun r w' => w₂ = w' ∧ r = w₂.routers k) k ⟨rfl, rfl⟩).bind ?_
    rintro _ _ _ ⟨rfl, rfl⟩
    generalize (Json.object wire).stringify w.numbers.text = input at *
    refine Walks.bind (Q := fun _ w' => w₂ = w' ∧
      (w₂.routers k).cache.bytes + (((w₂.routers k).maxBytes + utf16Length input * 2 : Nat) : Int) ≤ (w₂.routers k).cache.maxBytes) ?_ ?_
    · rw [Walks, wp_onCache]
      refine wp_mono (RequestCache.reserve_spec _ _) ?_ ?_
      · rintro _ _ ⟨rfl, reserved⟩
        exact ⟨.of_eq (World.setRouter_same w₂ k), (World.setRouter_same w₂ k).symm, reserved⟩
      · rintro _ _ rfl
        exact .of_eq (World.setRouter_same w₂ k)
    rintro _ _ _ ⟨rfl, reserved⟩
    -- The fields a subscribe depends on are those the request came in with.
    have same : w₂.routers k = { w.routers k with lastTime := t, cache := (w₂.routers k).cache } := by
      rw [expired, World.setRouter_self, ticked]
    have isOpen₂ : (w₂.routers k).closed = false := by rw [same]; exact isOpen
    have welcomed₂ : (w₂.routers k).welcomed = true := by rw [same]; exact welcomed
    have past : t ≤ (w₂.routers k).lastTime := by rw [same]
    have numbers : w₂.numbers = w.numbers := trip₂.goes.numbers.trans trip₁.goes.numbers
    have fits : allow.large ∨ (w₂.routers k).Announces w₂.numbers wire id := by
      rw [numbers, same]
      exact fits
    have born := sane₂.born isOpen₂
    rw [Walks, wp_bind]
    refine wp_mono (wp_and (operation_works permits k wire id w₂ sane₂)
      (wp_and (operation_cache k wire id w₂ sane₂ born) (operation_plain k wire id w₂)))
      (fun response w₃ done => ?_) fun _ _ h => h.1.loosen
    obtain ⟨worked, kept, plain⟩ := done
    cases worked with
    | done trip₃ =>
      have routerKept := trip₃.goes.kept born
      refine wp_mono (answer_walks cached k id input response t w₃ (trip₃.sane sane₂) (past.trans routerKept.lastTime)
        (routerKept.welcomed welcomed₂) plain
        fun output small plain => ?_) (fun _ _ h => ⟨trip₃.trans h.1, trivial⟩) fun _ _ h => trip₃.loosen.trans h
      rw [routerKept.maxBytes] at small
      exact kept.storable absent room reserved (sane₂.routers k).cache output small plain
    | pending w₄ trip₄ same₄ pending =>
      have fits : allow.large ∨ (w₄.routers k).Announces w₄.numbers wire id := by
        rw [same₄, trip₄.goes.numbers]
        exact fits
      have past₄ : t ≤ (w₄.routers k).lastTime := by rw [same₄]; exact past
      have storable : ∀ output : Bytes, output.byteLength ≤ (w₄.routers k).maxBytes →
          output.envelope.stream = none → Storable (w₄.routers k).cache id input output := by
        intro output small plain
        rw [same₄] at small ⊢
        exact CacheKept.storable (.inl rfl) absent room reserved (sane₂.routers k).cache output small plain
      exact wp_mono (announce_walks cached (trip₄.sane sane₂) pending fits past₄ (by rw [same₄]; exact welcomed₂) storable)
        (fun _ _ h => ⟨trip₄.trans h, trivial⟩) fun _ _ h => trip₄.loosen.trans h

/-! ## Control operations -/

theorem allowed_walks (permits : Permits allow env) (k : Nat) (entry : RouterBinding η) (operation : Operation) :
    Roams allow (allowed env k entry operation) := by
  intro w sane
  refine Walks.ite (fun _ => ?_) fun _ => .pure _ trivial
  refine Walks.bind (Q := fun _ _ => True) ?_ fun ok w₁ _ _ => ?_
  · exact .of_hooked (wp_mono (hook_asked permits env.authorize permits.authorize w sane)
      (fun _ _ h => ⟨h.toHooked, trivial⟩) fun _ _ h => h.toHooked)
  refine Walks.bind (Q := fun _ _ => True) ?_ fun _ _ _ _ => .pure _ trivial
  exact ⟨.single (.answered k entry.binding.publicName operation ok) rfl rfl, trivial⟩

theorem catalog_walks (permits : Permits allow env) (k : Nat) (entries : List (RouterBinding η)) :
    Roams allow (catalog env k entries) := by
  induction entries with
  | nil => exact fun w _ => .pure _ trivial
  | cons entry entries ih =>
    intro w sane
    refine (allowed_walks permits k entry _ w sane).bind fun ok w₁ trip _ => ?_
    exact (ih w₁ (trip.sane sane)).bind fun _ _ _ _ => .pure _ trivial

theorem videoCatalog_walks (k : Nat) : Roams allow (videoCatalog env k) := by
  intro w _
  simp only [Walks, videoCatalog, wp_bind, wp_router]
  split
  · exact ⟨.refl w, trivial⟩
  · exact ⟨.ticked w _, trivial⟩

theorem control_walks (permits : Permits allow env) (cached : allow.cache) (k : Nat) (wire : Wire) (id : Option String)
    (w : World η) (sane : w.Sane) (isOpen : (w.routers k).closed = false)
    (fits : allow.large ∨ ∀ i, id = some i → (w.routers k).Announces w.numbers wire i) :
    Walks allow (some k) (control env k wire id) w fun _ _ => True := by
  refine Walks.ite (fun _ => ?_) fun _ => ?_
  · refine (Walks.ofExcept (Q := fun _ w' => w = w') _ fun _ _ => rfl).bind ?_
    rintro _ _ _ rfl
    refine (Walks.router (Q := fun r w' => w = w' ∧ r = w.routers k) k ⟨rfl, rfl⟩).bind ?_
    rintro r _ _ ⟨rfl, rfl⟩
    refine (Walks.throwIf (Q := fun _ w' => w = w') _ _ fun _ => rfl).bind ?_
    rintro _ _ _ rfl
    refine (catalog_walks permits k _ w sane).loosen.bind fun catalog w₁ trip₁ _ => ?_
    have sane := trip₁.sane sane
    refine ((videoCatalog_walks k).walks sane).bind fun video w₂ trip₂ _ => ?_
    refine (respond_walks k _ rfl w₂ (trip₂.sane sane)).bind fun _ w₃ _ _ => ?_
    refine ⟨.move (.counted (w₃.routers k).controlWindow (w₃.routers k).controlCount true fun _ => rfl) fun _ s => s.of_streams rfl rfl, trivial⟩
  · refine (Walks.router (Q := fun r w' => w = w' ∧ r = w.routers k) k ⟨rfl, rfl⟩).bind ?_
    rintro r _ _ ⟨rfl, rfl⟩
    refine (Walks.throwIf (Q := fun _ w' => w = w' ∧ (w.routers k).welcomed = true) _ _ fun h => ⟨rfl, by simpa using h⟩).bind ?_
    rintro _ _ _ ⟨rfl, welcomed⟩
    refine Walks.ite (fun _ => ?_) fun _ => ?_
    · refine (Walks.ofExcept (Q := fun _ w' => w = w') _ fun _ _ => rfl).bind ?_
      rintro _ _ _ rfl
      refine (Walks.ofExcept (Q := fun _ w' => w = w') _ fun _ _ => rfl).bind ?_
      rintro stream _ _ rfl
      simp only [Walks, subscription, wp_bind, wp_router]
      split
      · exact .refl w
      · next sub found => exact ⟨.move (.readied stream sub found) fun _ s => s.of_streams rfl rfl, trivial⟩
    · split
      · exact .throw _
      · next id => exact request_walks permits cached k wire id w sane isOpen welcomed (fits.imp_right fun h => h id rfl)

end RosBridge.Router
