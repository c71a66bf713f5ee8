import RosBridge.Router.Work
/-!
# Publications take steps only

The ticket of a guarded publish is validated, then the router's own hook answers, then
`ros.publish` is called: nothing else happens in between.
-/

namespace RosBridge.Router

open Lib Prog Session Config Relation CommandGuard

variable {η : Type} {allow : Allow} {env : Env η}

/-- A sequence number is noted on the handle of a request. -/
theorem Noted.tended {g g' : CommandGuard} {request : CommandRequest} {clock : Session.Num} {f : HandleState → HandleState}
    (identity : ∀ s, (f s).identity = s.identity) (lease : ∀ s, (f s).lease = s.lease) (n : Noted g request clock f g') :
    Tended g g' .quiet [] ∧ Tended g g' .quiet [.validated request (clock.getD 0) g] := by
  obtain ⟨t, st, own, rfl, -, valid, rfl⟩ := n
  exact ⟨⟨.noted request.handle f identity lease, .quiet, rfl, le_refl _, rfl, rfl, rfl⟩,
    .noted request.handle f identity lease, .validated request t st own valid rfl, rfl, le_refl _, rfl, rfl, rfl⟩

theorem guardPrepare_hooked (permits : Permits allow env) (request : CommandRequest) (w : World η) (sane : w.Sane) :
    wp (guardPrepare env request) (fun ticket w' => Hooked allow w w' ∧ ticket.1 = request) (fun _ w' => Hooked allow w w') w := by
  simp only [guardPrepare, wp_bind, wp_onGuard]
  refine wp_mono (prepareBegin_spec request w.guard) ?_ ?_
  · rintro ⟨_, seq⟩ _ ⟨-, rfl⟩
    refine wp_mono (guardAuthorize_asked permits w sane) (fun _ w₁ h => ?_) fun _ _ h => h.toHooked
    rw [wp_ask]
    have asked : Hooked allow w { w₁ with tick := w₁.tick + 1 } := h.toHooked.trans (.elapsed _ _ _)
    refine wp_mono (prepareRest_spec request seq _ w₁.guard) (fun _ g noted => ⟨?_, rfl⟩) fun _ g ticked => asked.trans (.clock ticked)
    have tended := (Noted.tended (by intro _; rfl) (by intro _; rfl) noted).1
    simpa using asked.trans (Hooked.tended tended (by simp))
  · rintro _ _ rfl
    exact .refl w

/-- The ticket of a guarded publish names the session of its router and its handle. -/
theorem publishTicket_hooked (permits : Permits allow env) (k : Nat) (wire : Wire) (handle : String) (guarded : Bool) (seq : Nat)
    (w : World η) (sane : w.Sane) :
    wp (publishTicket env k wire handle guarded seq)
      (fun ticket w' => Hooked allow w w' ∧ (guarded = true → ∃ saved n, ticket = some (saved, n) ∧
        saved.sessionId = (w.routers k).sessionId ∧ saved.handle = handle))
      (fun _ w' => Hooked allow w w') w := by
  simp only [publishTicket, wp_ite, wp_bind, wp_router, wp_ofExcept, wp_throwIf, wp_pure]
  refine ⟨fun _ => ⟨fun leaseId _ => ?_, fun _ _ => .refl w⟩, fun unguarded => ⟨fun _ => .refl w, fun _ => ⟨.refl w, fun h => absurd h unguarded⟩⟩⟩
  refine wp_mono (guardPrepare_hooked permits _ w sane) ?_ fun _ _ h => h
  rintro ⟨saved, n⟩ w₁ ⟨h, rfl⟩
  exact ⟨h, fun _ => ⟨_, n, rfl, rfl, rfl⟩⟩

/-- A ticket was published up to its callback. -/
structure Passed (allow : Allow) (ticket : Option (CommandRequest × Nat)) (w w' : World η) : Prop where
  trip : Trip allow none w w'
  routers : ∀ j, w'.routers j = w.routers j ∨ Shut (w.routers j) (w'.routers j)
  validated : ∀ saved n, ticket = some (saved, n) → ∃ before t g, w'.history = before ++ [.validated saved t g]

theorem ticketPublish_passed (permits : Permits allow env) (ticket : Option (CommandRequest × Nat)) (w : World η) (sane : w.Sane) :
    wp (ticketPublish env ticket) (fun _ w' => Passed allow ticket w w') (fun _ w' => Trip allow none w w') w := by
  match ticket with
  | none => exact ⟨.refl w, fun _ => .inl rfl, nofun⟩
  | some (saved, seq) =>
    simp only [ticketPublish, wp_bind, wp_onGuard]
    refine wp_mono (validateBegin_spec saved w.guard) ?_ ?_
    · rintro _ _ rfl
      refine wp_mono (guardAuthorize_asked permits w sane) (fun _ w₁ h => ?_) fun _ _ h => h.trip
      simp only [wp_ask, wp_get, wp_note]
      have asked : Hooked allow w { w₁ with tick := w₁.tick + 1 } := h.toHooked.trans (.elapsed _ _ _)
      refine wp_mono (publishRest_spec saved seq _ w₁.guard) (fun _ g noted => ?_) fun _ g ticked => (asked.trans (.clock ticked)).trip
      have tended := (Noted.tended (by intro _; rfl) (by intro _; rfl) noted).2
      have step : Step allow { w₁ with tick := w₁.tick + 1 } _ := .tended .quiet g _ tended
      refine ⟨asked.trip.trans (.single step rfl rfl), asked.routers, ?_⟩
      rintro _ _ e
      obtain ⟨rfl, rfl⟩ := Prod.mk.inj (Option.some.inj e)
      exact ⟨w₁.history, _, w₁.guard, rfl⟩
    · rintro _ _ rfl
      exact .refl w

/-- A router whose publish has passed all checks of its handle. -/
structure Admitted (r : SessionRouter η) (handle : String) (entry : RouterBinding η) : Prop where
  publisher : ∃ p, r.publishers.get? handle = some p ∧ p.entry = entry
  admitted : r.trace.getLast? = some (.admitted handle entry.binding.publicName r.lastTime)

/-- The boundary is reached by one step, with the checks of the handle and of the ticket
behind it and the answer of the router's own hook just before it. -/
theorem rosPublish_walks (permits : Permits allow env) (k : Nat) (handle : String) (entry : RouterBinding η) (native : η)
    (ticket : Option (CommandRequest × Nat)) (w : World η) (sane : w.Sane)
    (found : (w.routers k).entries.get? entry.binding.publicName = some entry)
    (admitted : (w.routers k).closed = false → Admitted (w.routers k) handle entry)
    (guarded : entry.binding.commandGuard.isSome → ∃ saved n before t g, ticket = some (saved, n) ∧
      saved.sessionId = (w.routers k).sessionId ∧ saved.handle = handle ∧ w.history = before ++ [.validated saved t g]) :
    Walks allow none (rosPublish env k handle entry native ticket) w fun _ _ => True := by
  refine Walks.bind (Q := fun e w' => Entered allow k entry.binding.publicName .publish w e w') ?_ fun e w₁ trip entered => ?_
  · exact .of_hooked (wp_mono (entry_entered permits k _ .publish w sane) (fun _ _ h => ⟨h.toHooked, h⟩) fun _ _ h => h)
  obtain rfl : e = entry := Option.some.inj (entered.found.symm.trans found)
  refine (Walks.ofExcept (Q := fun _ w' => w₁ = w') _ fun _ _ => rfl).bind ?_
  rintro _ _ _ rfl
  simp only [Walks, wp_bind, wp_router, wp_mark, wp_note, wp_get, wp_ask, wp_throwIf]
  obtain ⟨⟨p, here, own⟩, last⟩ := admitted entered.isOpen
  subst own
  rw [← entered.same] at here last
  have isOpen : (w₁.routers k).closed = false := by rw [entered.same]; exact entered.isOpen
  have answered : w₁.history.getLast? = some (.answered k p.entry.binding.publicName .publish true) := by
    obtain ⟨before, history, -⟩ := entered.answered
    simp [history]
  have cleared : p.guarded = true → ∃ r, ticket.map (·.1) = some r ∧ r.sessionId = (w₁.routers k).sessionId ∧
      r.handle = handle ∧ Cleared w₁.history r := by
    intro isGuarded
    have advertised := ((sane.routers k).advertised handle p (by rwa [← entered.same])).2
    obtain ⟨saved, n, before, t, g, rfl, owner, own, validated⟩ := guarded (advertised ▸ isGuarded)
    obtain ⟨after, history, asked, ofHook⟩ := entered.asked
    refine ⟨saved, rfl, by rw [entered.same, owner], own, before, t, g, after, ?_, asked, ofHook⟩
    rw [history, validated, List.append_assoc]
    rfl
  have step : Step allow w₁ _ :=
    .published k handle p (w₁.routers k).lastTime (ticket.map (·.1)) isOpen here last answered cleared
  have trip : Trip allow none w₁ _ := .step step (fun _ h => World.setRouter_ne w₁ _ h) (fun _ s => by
    rw [World.setRouter_self]
    exact s.of_streams rfl rfl) rfl
  exact ⟨fun _ => trip.trans (.ticked _ _), fun _ => ⟨trip.trans (.ticked _ _), trivial⟩⟩

theorem publish_walks (permits : Permits allow env) (k : Nat) (channel : Channel) (wire : Wire) (w : World η) (sane : w.Sane) :
    Walks allow (some k) (publish env k channel wire) w fun _ _ => True := by
  refine (Walks.ofExcept (Q := fun _ w' => w = w') _ fun _ _ => rfl).bind ?_
  rintro _ _ _ rfl
  refine (Walks.router (Q := fun _ w' => w = w') k rfl).bind ?_
  rintro r _ _ rfl
  refine (Walks.throwIf (Q := fun _ w' => w = w') _ _ fun _ => rfl).bind ?_
  rintro _ _ _ rfl
  refine (Walks.ofExcept (Q := fun _ w' => w = w') _ fun _ _ => rfl).bind ?_
  rintro handle _ _ rfl
  refine Walks.bind (Q := fun p w' => w = w' ∧ (w.routers k).publishers.get? handle = some p) ?_ ?_
  · simp only [Walks, publisher, wp_bind, wp_router]
    split
    · exact .refl w
    · next p found => exact ⟨.refl w, rfl, found⟩
  rintro p _ _ ⟨rfl, here⟩
  refine Walks.bind (Q := fun e w' => Entered allow k p.entry.binding.publicName .publish w e w') ?_ fun e w₁ trip₁ entered => ?_
  · exact .of_hooked (wp_mono (entry_entered permits k _ .publish w sane) (fun _ _ h => ⟨h.toHooked, h⟩) fun _ _ h => h)
  obtain ⟨found, isGuarded⟩ := (sane.routers k).advertised handle p here
  obtain rfl : e = p.entry := Option.some.inj (entered.found.symm.trans found)
  have sane₁ := trip₁.sane sane
  refine (Walks.throwIf (Q := fun _ w' => w₁ = w') _ _ fun _ => rfl).bind ?_
  rintro _ _ _ rfl
  refine (Walks.ofExcept (Q := fun _ w' => w₁ = w') _ fun _ _ => rfl).bind ?_
  rintro seq _ _ rfl
  refine (now_walks (some k) k w₁).bind fun t w₂ trip₂ ticking => ?_
  obtain ⟨-, -, -, ticked⟩ := ticking
  have sane₂ := trip₂.sane sane₁
  have same₂ : w₂.routers k = { w.routers k with lastTime := t } := by rw [ticked, entered.same]
  refine (Walks.throwIf (Q := fun _ w' => w₂ = w' ∧ p.seq < seq ∧ p.nextAt ≤ t) _ _ fun h => ⟨rfl, ?_⟩).bind ?_
  · simpa [not_or] using h
  rintro _ _ _ ⟨rfl, newer, due⟩
  refine (Walks.ofExcept (Q := fun _ w' => w₂ = w') _ fun _ _ => rfl).bind ?_
  rintro native _ _ rfl
  refine Walks.bind (Q := fun ticket w₃ => Hooked allow w₂ w₃ ∧ (p.guarded = true → ∃ saved n, ticket = some (saved, n) ∧
    saved.sessionId = (w₂.routers k).sessionId ∧ saved.handle = handle)) ?_ ?_
  · exact .of_hooked (wp_mono (publishTicket_hooked permits k wire handle p.guarded seq w₂ sane₂)
      (fun _ _ h => ⟨h.1, h⟩) fun _ _ h => h)
  rintro ticket w₃ trip₃ ⟨hooked, named⟩
  have sane₃ := trip₃.sane sane₂
  have lastTime : (w₃.routers k).lastTime = t := by rw [hooked.lastTime, same₂]
  set r := ({ w₃.routers k with
    publishers := (w₃.routers k).publishers.modify handle fun p₁ =>
      { p₁ with seq := (seq : Int), nextAt := t + 1000 / p.entry.binding.maxRateHz }
    trace := (w₃.routers k).trace ++ [.admitted handle p.entry.binding.publicName t] } : SessionRouter η) with hr
  have admitting : Trip allow none w₃ (w₃.setRouter k r) := by
    refine .move (.admitted handle p.entry seq t lastTime.symm fun isOpen => ?_) fun _ s => s.of_streams rfl rfl
    rw [hooked.router_eq isOpen, same₂]
    exact ⟨p, here, rfl, newer, due⟩
  have sane₄ := admitting.sane sane₃
  simp only [Walks, wp_bind, wp_update]
  refine wp_mono (ticketPublish_passed permits ticket _ sane₄) (fun _ w₅ passed => ?_) fun _ _ h => (admitting.trans h).loosen
  have trip₅ := admitting.trans passed.trip
  have own := passed.routers k
  rw [World.setRouter_self] at own
  have entries : (w₅.routers k).entries = (w.routers k).entries := by
    have before : r.entries = (w.routers k).entries := (hooked.entries k).trans (by rw [same₂])
    rcases own with e | shut
    · rw [e, before]
    · rw [shut.entries, before]
  have sessionId : (w₅.routers k).sessionId = (w₂.routers k).sessionId := by
    rcases own with e | shut
    · rw [e]
      exact hooked.sessionId k
    · exact shut.sessionId.trans (hooked.sessionId k)
  have admitted : (w₅.routers k).closed = false → Admitted (w₅.routers k) handle p.entry := by
    intro isOpen
    have e : w₅.routers k = r := own.resolve_right fun shut => by simp [shut.closed] at isOpen
    rw [e] at isOpen ⊢
    refine ⟨⟨{ p with seq := (seq : Int), nextAt := t + 1000 / p.entry.binding.maxRateHz }, ?_, rfl⟩, by simp [hr, lastTime]⟩
    simp [hr, Table.get?_modify, hooked.router_eq isOpen, same₂, here]
  have rest : Walks allow (some k) (do
      rosPublish env k handle p.entry native ticket
      respond k (.publishedToRos handle (toString seq))) w₅ fun _ _ => True := by
    refine (rosPublish_walks permits k handle p.entry native ticket w₅ (trip₅.sane sane₃) (by rw [entries]; exact found) admitted
      fun guarded => ?_).loosen.bind fun _ w₆ trip₆ _ => ?_
    · obtain ⟨saved, n, rfl, owner, own⟩ := named (isGuarded.trans guarded)
      obtain ⟨before, t, g, history⟩ := passed.validated saved n rfl
      exact ⟨saved, n, before, t, g, rfl, owner.trans sessionId.symm, own, history⟩
    · exact (respond_walks k _ rfl w₆ (trip₆.sane (trip₅.sane sane₃))).mono fun _ _ _ _ => trivial
  rw [Walks, wp_bind] at rest
  exact wp_mono rest (fun _ _ h => wp_mono h (fun _ _ h => ⟨trip₅.trans h.1, trivial⟩) fun _ _ h => trip₅.loosen.trans h)
    fun _ _ h => trip₅.loosen.trans h

end RosBridge.Router
