import Mathlib.Data.List.Induction
import RosBridge.App.MessageSizes
import RosBridge.App.Writers
import RosBridge.Router.Capacity
import RosBridge.Transport.Closings
/-!
# The peers of an application

`app/runtime.ts`: what `startApp` assembles, from its guard to the end of its `close`. Offers
make endpoints, an endpoint makes at most one router of the one bridge, and an endpoint is
registered until its `onClosed` is called. What the peers, the transport, ROS and the encoders
do comes with each input, in any order.

Peers cannot take each other's room (`capacity_kept`).
-/

namespace RosBridge.App

open Lib Prog Session Config Router Transport

variable {η : Type}

/-- An endpoint, with the number of the router it made. -/
structure Peer where
  endpoint : Endpoint
  router : Option Nat

/-- What an application is made of. Without a media plane there is no `maxSlots`. -/
structure AppSettings (η : Type) where
  config : BridgeConfig
  registry : List (RouterBinding η)
  limits : RouterLimits
  maxSdpBytes : Session.Num
  timeoutMs : Session.Num
  maxSlots : Option ℚ

/-- How far `close` is. -/
inductive Shutdown where
  | running
  /-- It waits for the peers that were registered. -/
  | waiting (peers : List Nat)
  | ended

/-- The state of an application. -/
structure Runtime (η : Type) where
  settings : AppSettings η
  world : World η
  /-- The endpoints that were made, in this order. -/
  made : List Peer
  /-- The registered ones. -/
  peers : List Nat
  closing : Shutdown

namespace Runtime

abbrev RuntimeM (η α : Type) := Prog (Runtime η) String α

def stopped (a : Runtime η) : Bool :=
  match a.closing with
  | .running => false
  | _ => true

/-- Run a piece of code of the bridge. -/
def onWorld {α : Type} (m : Code η α) : RuntimeM η α := zoom Runtime.world (fun a w => { a with world := w }) m

/-- An offer, with what `makePeer`, `randomUUID` and `makeVideoSlot` give for it, and how a
`close` goes. -/
structure Arrival where
  makes : Bool
  epoch : String
  offer : Endpoint.Offer
  adds : Nat → Bool
  slots : List Router.VideoSlot
  ends : Ends

/-- `answer`, up to where it waits. Whether it gets as far as `makeRouter` shows in whether
the endpoint stays open if that returns. -/
def answer (env : Env η) (arrival : Arrival) (e : Endpoint) : RuntimeM η Peer := do
  let a ← get
  -- The constructor of a router sends nothing.
  let answered (throws : Bool) := e.step (.answer arrival.offer ⟨arrival.adds, ⟨[], throws, false⟩⟩ arrival.ends)
  if (answered false).closed then return ⟨answered false, none⟩
  else
    tryCatch
      (do
        onWorld <| construct env <| makeRouter a.settings.config a.settings.registry a.settings.limits
          (answered false).maxMessageBytes arrival.epoch (a.settings.maxSlots.map fun _ => arrival.slots)
        return ⟨answered false, some a.world.born⟩)
      fun _ => return ⟨answered true, none⟩

/-- The handler's `accept`. -/
def accept (env : Env η) (arrival : Arrival) : RuntimeM η Unit := do
  let a ← get
  throwIf (a.stopped ∨ a.peers.length ≥ a.settings.config.limits.maxPeers) "peer_limit"
  throwIf (!arrival.makes) "peer_failed"
  let e ← Prog.ofExcept (makeEndpoint a.settings.config a.settings.maxSdpBytes a.settings.timeoutMs a.settings.maxSlots)
  let peer ← answer env arrival e
  modify fun a => { a with made := a.made ++ [peer], peers := a.peers ++ [a.made.length] }

/-- The `close` of a router, if there is one; what it throws is caught. -/
def release (env : Env η) : Option Nat → RuntimeM η Unit
  | none => pure ()
  | some k => tryCatch (onWorld (close env k)) fun _ => pure ()

/-- An event reaches endpoint `i`: closing it closes its router, and `onClosed` removes it
from the peers. -/
def reach (env : Env η) (i : Nat) (event : Endpoint.Event) : RuntimeM η Unit := do
  match (← get).made[i]? with
  | none => pure ()
  | some p =>
    let e := p.endpoint.step event
    when (!p.endpoint.closed ∧ e.closed) <| release env p.router
    modify fun a => { a with
      made := a.made.set i ⟨e, p.router⟩
      peers := if !p.endpoint.told ∧ e.told then a.peers.erase i else a.peers }

def closeAll (env : Env η) (ends : Nat → Ends) : List Nat → RuntimeM η Unit
  | [] => pure ()
  | i :: peers => do
    reach env i (.close (ends i))
    closeAll env ends peers

/-- `close`, up to where it waits for the peers. -/
def stop (env : Env η) (ends : Nat → Ends) : RuntimeM η Unit := do
  let a ← get
  when (!a.stopped) do
    modify fun a => { a with closing := .waiting a.peers }
    closeAll env ends a.peers

/-- The promise of an endpoint's `close` has settled. -/
def settled (a : Runtime η) (i : Nat) : Bool := (a.made[i]?).all fun p => p.endpoint.closing = .settled

/-- The rest of `close`, once the peers are closed: the guard, the media service and the
listeners of the adapter. -/
def finish (env : Env η) : RuntimeM η Unit := do
  let a ← get
  match a.closing with
  | .waiting peers =>
    when (∀ i ∈ peers, a.settled i) do
      onWorld (onGuard CommandGuard.close)
      tryCatch (onWorld (mediaClose env)) fun _ => pure ()
      modify fun a => { a with world := { a.world with listeners := [] }, closing := .ended }
  | _ => pure ()

/-- What reaches an application. -/
inductive Input (η : Type) where
  | offer (arrival : Arrival)
  | endpoint (i : Nat) (event : Endpoint.Event)
  | bridge (input : Router.Input η)
  | stop (ends : Nat → Ends)
  | finish

def Input.code (env : Env η) : Input η → RuntimeM η Unit
  | .offer arrival => accept env arrival
  | .endpoint i event => reach env i event
  | .bridge input => onWorld (input.code env)
  | .stop ends => Runtime.stop env ends
  | .finish => Runtime.finish env

def step (a : Runtime η) (i : Env η × Input η) : Runtime η := (i.2.code i.1).after a

def run (a : Runtime η) (inputs : List (Env η × Input η)) : Runtime η := inputs.foldl step a

/-- The application that `startApp` has assembled around a guard and a media service. -/
def start (settings : AppSettings η) (numbers : NumberText) (guard : CommandGuard) (media : MediaService) : Runtime η :=
  ⟨settings, .start numbers guard media, [], [], .running⟩

/-- As `startApp` connects the bridge: its hooks look permissions up and return, the adapter
takes every listener back, a `detach` reaches the media service, routers are constructed by
`accept` alone and the media service is closed by `close` alone. Hooks may close routers. -/
structure Input.Orderly (i : Env η × Input η) : Prop where
  hooks : i.1.Hooks Reaction.Mild
  unsubscribe : ∀ n, i.1.unsubscribe n = true
  detach : ∀ n, i.1.detach n = true
  outside : ∀ reaction, i.2 = .bridge (.outside reaction) → reaction.Mild
  constructs : ∀ options, i.2 ≠ .bridge (.construct options)
  closes : i.2 ≠ .bridge .mediaClose

/-! ## Invariant -/

/-- The registered endpoints are those whose `onClosed` was not called, there is room for
them, and an open router is that of an endpoint that is not closed. Each router may have `H`
handles. When the media service is closed every endpoint is. -/
structure Hosting (settings : AppSettings η) (limits : GuardOptions) (H : Nat) (a : Runtime η) : Prop where
  same : a.settings = settings
  bounds : a.world.guard.options = limits
  ledger : Ledger a.world
  allowed : ∀ k, k < a.world.born → (a.world.routers k).limits.maxHandles = H
  room : a.peers.length ≤ settings.config.limits.maxPeers
  nodup : a.peers.Nodup
  present : ∀ i ∈ a.peers, i < a.made.length
  registered : ∀ i p, a.made[i]? = some p → (i ∈ a.peers ↔ p.endpoint.told = false)
  whole : ∀ p ∈ a.made, Whole p.endpoint
  born : ∀ p ∈ a.made, ∀ k, p.router = some k → k < a.world.born
  released : ∀ p ∈ a.made, p.endpoint.closed = true → ∀ k, p.router = some k → (a.world.routers k).closed = true
  owners : ∀ k, (a.world.routers k).closed = false → ∃ (i : Nat) (p : Peer), a.made[i]? = some p ∧ p.router = some k
  awaited : ∀ peers, a.closing = .waiting peers → ∀ i p, a.made[i]? = some p → i ∈ peers ∨ p.endpoint.closed = true
  ended : a.closing = .ended → ∀ p ∈ a.made, p.endpoint.closed = true
  media : a.world.media.closed = true → a.closing = .ended

section Keeping

variable {settings : AppSettings η} {limits : GuardOptions} {H : Nat} {a : Runtime η} {w : World η} {env : Env η}

/-- The routers of closed endpoints are closed, so no other is open. -/
theorem Hosting.closed (h : Hosting settings limits H a) (all : ∀ p ∈ a.made, p.endpoint.closed = true) (k : Nat) :
    (a.world.routers k).closed = true := by
  by_contra isOpen
  obtain ⟨i, p, found, made⟩ := h.owners k (by simpa using isOpen)
  have mem := List.mem_of_getElem? found
  exact isOpen (h.released p mem (all p mem) k made)

/-- `onClosed` is called for closed endpoints only. -/
theorem Hosting.untold (h : Hosting settings limits H a) {p : Peer} (mem : p ∈ a.made) (lives : p.endpoint.closed = false) :
    p.endpoint.told = false := by
  by_contra told
  simp only [Endpoint.told, Bool.not_eq_false, decide_eq_true_eq] at told
  have closed := (h.whole p mem).closing.2 (by rcases told with e | e <;> simp [e])
  rw [lives] at closed
  cases closed

/-- Whatever the bridge does between two constructions. -/
theorem Hosting.world (h : Hosting settings limits H a) (g : Goes .tidy a.world w) (same : w.born = a.world.born)
    (media : w.media.closed = a.world.media.closed) : Hosting settings limits H { a with world := w } := by
  have ledger : Ledger w := h.ledger.goes g fun closed => ⟨same, h.closed (h.ended (h.media (media ▸ closed)))⟩
  refine { h with
    bounds := g.guard_options.trans h.bounds
    ledger := ledger
    allowed := fun k born => ?_
    born := fun p mem k made => same ▸ h.born p mem k made
    released := fun p mem ends k made => (g.kept (h.born p mem k made)).closed (h.released p mem ends k made)
    owners := fun k isOpen => h.owners k ?_
    media := fun closed => h.media (media ▸ closed) }
  · have born : k < a.world.born := same ▸ born
    exact (g.kept born).limits ▸ h.allowed k born
  · have born : k < a.world.born := same ▸ ledger.sane.born isOpen
    by_contra shut
    have shut := (g.kept born).closed (by simpa using shut)
    rw [isOpen] at shut
    cases shut

/-- An event has reached an endpoint; if that is closed now, so is its router. -/
theorem Hosting.reached (h : Hosting settings limits H a) {i : Nat} {p : Peer} (there : a.made[i]? = some p)
    (event : Endpoint.Event)
    (released : (p.endpoint.step event).closed = true → ∀ k, p.router = some k → (a.world.routers k).closed = true) :
    Hosting settings limits H { a with
      made := a.made.set i ⟨p.endpoint.step event, p.router⟩
      peers := if !p.endpoint.told ∧ (p.endpoint.step event).told then a.peers.erase i else a.peers } := by
  obtain ⟨bound, -⟩ := List.getElem?_eq_some_iff.1 there
  have mem := List.mem_of_getElem? there
  have here : (a.made.set i ⟨p.endpoint.step event, p.router⟩)[i]? = some ⟨p.endpoint.step event, p.router⟩ :=
    List.getElem?_set_self bound
  have elsewhere : ∀ j, j ≠ i → (a.made.set i ⟨p.endpoint.step event, p.router⟩)[j]? = a.made[j]? :=
    fun j other => List.getElem?_set_ne other.symm
  refine { h with
    room := ?_, nodup := ?_, present := ?_, registered := fun j q found => ?_, whole := ?_, born := ?_, released := ?_
    owners := fun k isOpen => ?_, awaited := fun peers waiting j q found => ?_, ended := fun done => ?_ }
  · split
    · exact (List.length_erase_le ..).trans h.room
    · exact h.room
  · split
    · exact h.nodup.erase i
    · exact h.nodup
  · intro j mem
    rw [List.length_set]
    split at mem
    · exact h.present j (List.mem_of_mem_erase mem)
    · exact h.present j mem
  · by_cases same : j = i
    · subst same
      obtain rfl := Option.some.inj (here.symm.trans found)
      have known := h.registered j p there
      cases before : p.endpoint.told with
      | true =>
        have after := told_lasts event before
        simpa [after, before] using known
      | false =>
        cases after : (p.endpoint.step event).told with
        | true => simpa using h.nodup.not_mem_erase
        | false => simpa [before] using known
    · rw [elsewhere j same] at found
      rw [← h.registered j q found]
      split
      · exact List.mem_erase_of_ne same
      · rfl
  · intro q mem'
    rcases List.mem_or_eq_of_mem_set mem' with old | rfl
    · exact h.whole q old
    · exact step_whole event (h.whole p mem)
  · intro q mem'
    rcases List.mem_or_eq_of_mem_set mem' with old | rfl
    · exact h.born q old
    · exact h.born p mem
  · intro q mem'
    rcases List.mem_or_eq_of_mem_set mem' with old | rfl
    · exact h.released q old
    · exact released
  · obtain ⟨j, q, found, made⟩ := h.owners k isOpen
    by_cases same : j = i
    · subst same
      obtain rfl := Option.some.inj (there.symm.trans found)
      exact ⟨j, _, here, made⟩
    · exact ⟨j, q, (elsewhere j same).trans found, made⟩
  · by_cases same : j = i
    · subst same
      obtain rfl := Option.some.inj (here.symm.trans found)
      exact (h.awaited peers waiting j p there).imp_right (closed_lasts event)
    · exact h.awaited peers waiting j q ((elsewhere j same).symm.trans found)
  · intro q mem'
    rcases List.mem_or_eq_of_mem_set mem' with old | rfl
    · exact h.ended done q old
    · exact closed_lasts event (h.ended done p mem)

/-- What an offer has led to: an endpoint that is not closed has a new router, or there is
no router. -/
structure Answered (H : Nat) (a : Runtime η) (p : Peer) (w : World η) : Prop where
  whole : Whole p.endpoint
  untold : p.endpoint.told = false
  goes : Goes .tidy a.world w
  media : w.media.closed = a.world.media.closed
  router : p.router = none ∧ w.born = a.world.born ∨
    p.router = some a.world.born ∧ w.born = a.world.born + 1 ∧ p.endpoint.closed = false ∧
      (w.routers a.world.born).limits.maxHandles = H

theorem Hosting.added (h : Hosting settings limits H a) (running : a.closing = .running)
    (room : a.peers.length < settings.config.limits.maxPeers) {p : Peer} (answered : Answered H a p w) :
    Hosting settings limits H { a with world := w, made := a.made ++ [p], peers := a.peers ++ [a.made.length] } := by
  have grown : a.world.born ≤ w.born := Goes.born answered.goes
  have unclosed : w.media.closed ≠ true := by
    intro closed
    have ended := h.media (answered.media ▸ closed)
    rw [running] at ended
    cases ended
  have ledger : Ledger w := h.ledger.goes answered.goes fun closed => absurd closed unclosed
  have absent : a.made.length ∉ a.peers := fun mem => Nat.lt_irrefl _ (h.present _ mem)
  refine { h with
    bounds := answered.goes.guard_options.trans h.bounds
    ledger := ledger
    allowed := fun k born => ?_
    room := by simpa [Nat.succ_le_iff] using room
    nodup := List.nodup_append.2 ⟨h.nodup, List.nodup_singleton _, by simpa using fun j mem => (h.present j mem).ne⟩
    present := ?_, registered := fun i q found => ?_, whole := ?_, born := ?_, released := ?_
    owners := fun k isOpen => ?_
    awaited := by simp [running]
    ended := by simp [running]
    media := fun closed => absurd closed unclosed }
  · have born : k < w.born := born
    by_cases old : k < a.world.born
    · exact (answered.goes.kept old).limits ▸ h.allowed k old
    · rcases answered.router with ⟨-, same⟩ | ⟨-, next, -, handles⟩
      · omega
      · obtain rfl : k = a.world.born := by omega
        exact handles
  · simp only [List.mem_append, List.mem_singleton, List.length_append, List.length_singleton]
    rintro i (mem | rfl)
    · exact Nat.lt_succ_of_lt (h.present i mem)
    · exact Nat.lt_succ_self _
  · rw [List.getElem?_append] at found
    split at found
    · next bound =>
      rw [← h.registered i q found, List.mem_append, List.mem_singleton, or_iff_left bound.ne]
    · next bound =>
      obtain ⟨rfl, rfl⟩ : i = a.made.length ∧ q = p := by
        cases rest : i - a.made.length with
        | zero =>
          rw [rest] at found
          exact ⟨by omega, (Option.some.inj found).symm⟩
        | succ n =>
          rw [rest] at found
          cases found
      simp [answered.untold]
  · simpa [or_imp, forall_and] using ⟨h.whole, answered.whole⟩
  · simp only [List.mem_append, List.mem_singleton]
    rintro q (mem | rfl) k made
    · exact (h.born q mem k made).trans_le grown
    · rcases answered.router with ⟨none, -⟩ | ⟨newest, next, -⟩
      · rw [none] at made
        cases made
      · obtain rfl := Option.some.inj (newest.symm.trans made)
        omega
  · simp only [List.mem_append, List.mem_singleton]
    rintro q (mem | rfl) closed k made
    · exact (answered.goes.kept (h.born q mem k made)).closed (h.released q mem closed k made)
    · rcases answered.router with ⟨none, -⟩ | ⟨-, -, isOpen, -⟩
      · rw [none] at made
        cases made
      · rw [isOpen] at closed
        cases closed
  · by_cases old : k < a.world.born
    · have wasOpen : (a.world.routers k).closed = false := by
        by_contra shut
        have shut := (answered.goes.kept old).closed (by simpa using shut)
        rw [isOpen] at shut
        cases shut
      obtain ⟨i, q, found, made⟩ := h.owners k wasOpen
      exact ⟨i, q, List.getElem?_append_left (List.getElem?_eq_some_iff.1 found).1 ▸ found, made⟩
    · have born := ledger.sane.born isOpen
      rcases answered.router with ⟨-, same⟩ | ⟨newest, next, -⟩
      · omega
      · obtain rfl : k = a.world.born := by omega
        exact ⟨a.made.length, p, by simp, newest⟩

/-- The end of `close`. -/
theorem Hosting.finished (h : Hosting settings limits H a) (all : ∀ p ∈ a.made, p.endpoint.closed = true)
    (g : Goes .tidy { a.world with guard := { a.world.guard with closed := true, sessions := .empty, handles := .empty } } w)
    (same : w.born = a.world.born) : Hosting settings limits H { a with world := { w with listeners := [] }, closing := .ended } := by
  have closed := h.closed all
  have ledger : Ledger w := (h.ledger.guardClosed closed).goes g fun _ => ⟨same, closed⟩
  have kept : ∀ k, k < a.world.born → (a.world.routers k).Kept (w.routers k) := fun k born => g.kept born
  have closed' : ∀ k, (w.routers k).closed = true := by
    intro k
    by_cases born : k < a.world.born
    · exact (kept k born).closed (closed k)
    · exact ledger.sane.unborn k (same ▸ not_lt.1 born)
  refine { h with
    bounds := g.guard_options.trans h.bounds
    ledger := ledger.unheard closed'
    allowed := fun k born => ?_
    born := fun p mem k made => same ▸ h.born p mem k made
    released := fun p mem ends k made => closed' k
    owners := fun k isOpen => absurd (closed' k) (by simpa using isOpen)
    awaited := by simp
    ended := fun _ => all
    media := fun _ => rfl }
  have born : k < a.world.born := same ▸ born
  exact (kept k born).limits ▸ h.allowed k born

end Keeping

/-! ## Every input -/

section Codes

variable {settings : AppSettings η} {limits : GuardOptions} {H : Nat} {a : Runtime η} {env : Env η}

theorem release_spec (permits : Permits .tidy env) (h : Hosting settings limits H a) (router : Option Nat) :
    wp (release env router) (fun _ a' => Hosting settings limits H a' ∧ (∃ w, a' = { a with world := w }) ∧
      ∀ k, router = some k → (a'.world.routers k).closed = true) (fun _ _ => False) a := by
  cases router with
  | none => exact ⟨h, ⟨a.world, rfl⟩, by simp⟩
  | some k =>
    have released : ∀ w, Hooked .tidy a.world w ∧ (w.routers k).closed = true → w.born = a.world.born →
        Hosting settings limits H { a with world := w } ∧ (∃ w', { a with world := w } = { a with world := w' }) ∧
          ∀ j, some k = some j → (w.routers j).closed = true := by
      rintro w ⟨hooked, closed⟩ same
      exact ⟨h.world hooked.trip.goes same hooked.trip.media, ⟨w, rfl⟩, fun j e => Option.some.inj e ▸ closed⟩
    rw [release, wp_tryCatch, onWorld, wp_zoom]
    refine wp_mono (wp_and (close_hooked permits k a.world h.ledger.sane) (close_barren k a.world h.ledger.sane)) ?_ ?_
    · exact fun _ w ended => released w ended.1 ended.2
    · exact fun _ w ended => released w ended.1.1 ended.2

theorem reach_upholds (permits : Permits .tidy env) (i : Nat) (event : Endpoint.Event) :
    Upholds (Hosting settings limits H) (reach env i event) := by
  refine .getBind fun a h => ?_
  split
  · exact h
  · next p there =>
    apply after_of_wp
    simp only [wp_bind, wp_when, wp_modify]
    refine ⟨fun _ => ?_, fun lasts => ?_⟩
    · refine wp_mono (release_spec permits h p.router) ?_ fun _ _ => False.elim
      rintro _ _ ⟨h', ⟨w, rfl⟩, closed⟩
      exact h'.reached there event fun _ => closed
    · refine h.reached there event fun closed => h.released p (List.mem_of_getElem? there) ?_
      by_contra isOpen
      exact lasts ⟨by simpa using isOpen, closed⟩

theorem closeAll_upholds (permits : Permits .tidy env) (ends : Nat → Ends) (peers : List Nat) :
    Upholds (Hosting settings limits H) (closeAll env ends peers) := by
  induction peers with
  | nil => exact .pure ()
  | cons i peers ih => exact .bind (reach_upholds permits i _) fun _ => ih

theorem answer_spec (handles : positiveLimit settings.limits.maxHandles = some H) (h : Hosting settings limits H a)
    (arrival : Arrival) {e : Endpoint} (whole : Whole e) (untold : e.told = false) :
    wp (answer env arrival e) (fun p a' => ∃ w, a' = { a with world := w } ∧ Answered H a p w) (fun _ _ => False) a := by
  have after := fun event => step_whole event whole
  have silent := fun event early => Transport.code_upholds final_untold event early e untold
  rw [answer, wp_bind, wp_get, wp_ite]
  refine ⟨fun _ => ⟨a.world, rfl, after _, silent _ rfl, .refl, rfl, .inl ⟨rfl, rfl⟩⟩, fun isOpen => ?_⟩
  rw [wp_tryCatch, wp_bind, onWorld, wp_zoom]
  have allowed : positiveLimit a.settings.limits.maxHandles = some H := h.same ▸ handles
  refine wp_mono (@construct_housed η .tidy H env trivial _ allowed a.world h.ledger.sane) ?_ ?_
  · rintro _ w ⟨trip, next, limit⟩
    exact ⟨w, rfl, after _, silent _ rfl, trip.goes, trip.media, .inr ⟨rfl, next, by simpa using isOpen, limit⟩⟩
  · rintro _ w ⟨trip, same⟩
    exact ⟨w, rfl, after _, silent _ rfl, trip.goes, trip.media, .inl ⟨rfl, same⟩⟩

theorem running_of_stopped (h : a.stopped = false) : a.closing = .running := by
  unfold stopped at h
  split at h
  · assumption
  · cases h

theorem accept_upholds (handles : positiveLimit settings.limits.maxHandles = some H) (arrival : Arrival) :
    Upholds (Hosting settings limits H) (accept env arrival) := by
  refine .getBind fun a h => ?_
  apply after_of_wp
  simp only [wp_bind, wp_throwIf, wp_ofExcept, wp_modify]
  refine ⟨fun _ => h, fun taken => ⟨fun _ => h, fun _ => ⟨fun e made => ?_, fun _ _ => h⟩⟩⟩
  rw [not_or, h.same] at taken
  have untold : e.told = false := by
    unfold makeEndpoint Endpoint.create at made
    split at made
    · split at made
      · cases made
      · obtain rfl := Except.ok.inj made
        rfl
    · cases made
  refine wp_mono (answer_spec handles h arrival (create_whole made) untold) ?_ fun _ _ => False.elim
  rintro p _ ⟨w, rfl, answered⟩
  exact h.added (running_of_stopped (by simpa using taken.1)) (not_le.1 taken.2) answered

theorem stop_upholds (permits : Permits .tidy env) (ends : Nat → Ends) :
    Upholds (Hosting settings limits H) (Runtime.stop env ends) := by
  refine .getBind fun a h => ?_
  unfold Prog.when
  split
  · next running =>
    have running := running_of_stopped (by simpa using running)
    have waiting : Hosting settings limits H { a with closing := .waiting a.peers } := by
      refine { h with awaited := fun peers e i p found => ?_, ended := by simp, media := fun closed => ?_ }
      · obtain rfl := Shutdown.waiting.inj e
        by_cases lives : p.endpoint.closed = true
        · exact .inr lives
        · exact .inl ((h.registered i p found).2 (h.untold (List.mem_of_getElem? found) (by simpa using lives)))
      · have ended := h.media closed
        rw [running] at ended
        cases ended
    exact closeAll_upholds permits ends a.peers _ waiting
  · exact h

theorem finish_upholds (permits : Permits .tidy env) : Upholds (Hosting settings limits H) (finish env) := by
  refine .getBind fun a h => ?_
  split
  · next peers waiting =>
    apply after_of_wp
    rw [wp_when]
    refine ⟨fun ended => ?_, fun _ => h⟩
    -- What was awaited has settled, and everything else was closed before.
    have all : ∀ p ∈ a.made, p.endpoint.closed = true := by
      intro p mem
      obtain ⟨i, found⟩ := List.mem_iff_getElem?.1 mem
      rcases h.awaited peers waiting i p found with there | closed
      · have ended := ended i there
        simp only [settled, found, Option.all_some, decide_eq_true_eq] at ended
        exact (h.whole p mem).closing.2 (by simp [ended])
      · exact closed
    have sane := (h.ledger.guardClosed (h.closed all)).sane
    simp only [wp_bind, onWorld, wp_zoom, wp_onGuard, CommandGuard.close, wp_modify, wp_tryCatch, wp_pure]
    refine wp_mono (wp_and (mediaClose_goes permits _ sane) (input_barren .mediaClose (by simp) _ sane)) ?_ ?_ <;>
      exact fun _ w closes => h.finished all closes.1 closes.2
  · exact h

theorem code_upholds (handles : positiveLimit settings.limits.maxHandles = some H) {i : Env η × Input η} (orderly : Input.Orderly i) :
    Upholds (Hosting settings limits H) (i.2.code i.1) := by
  obtain ⟨env, i⟩ := i
  have permits : Permits .tidy env := ⟨.inr orderly.hooks, .inr orderly.unsubscribe, .inr orderly.detach⟩
  cases i with
  | offer arrival => exact accept_upholds handles arrival
  | endpoint i event => exact reach_upholds permits i event
  | bridge input =>
    intro a h
    apply after_of_wp
    rw [Input.code, onWorld, wp_zoom]
    have hooks : ∀ reaction, input = .outside reaction → Allow.tidy.wild ∨ reaction.Mild :=
      fun reaction e => .inr (orderly.outside reaction (congrArg _ e))
    have constructs : ∀ options, input ≠ .construct options := fun options e => orderly.constructs options (congrArg _ e)
    have closes : input ≠ .mediaClose := fun e => orderly.closes (congrArg _ e)
    have trips := input_trips permits trivial input hooks a.world h.ledger.sane (.inl trivial) (.inl trivial) closes
    refine wp_mono (wp_and trips (input_barren input constructs a.world h.ledger.sane)) ?_ ?_ <;> exact fun _ w ended => h.world ended.1.goes ended.2 ended.1.media
  | stop ends => exact stop_upholds permits ends
  | finish => exact finish_upholds permits

end Codes

/-! ## Runs -/

/-- Peers leave each other their room. Each router may have `H` handles. -/
structure Roomy (H : Nat) (a : Runtime η) : Prop where
  peers : a.peers.Nodup ∧ a.peers.length ≤ a.settings.config.limits.maxPeers
  /-- An endpoint is registered until `onClosed` is called. -/
  registered : ∀ i p, a.made[i]? = some p → (i ∈ a.peers ↔ .notified ∉ p.endpoint.trace)
  /-- A session of the guard is that of an open router, of a registered endpoint that is not
  closed. -/
  sessions : ∀ sessionId, a.world.guard.sessions.has sessionId → ∃ i ∈ a.peers, ∃ p k, a.made[i]? = some p ∧
    p.endpoint.closed = false ∧ p.router = some k ∧ (a.world.routers k).closed = false ∧ (a.world.routers k).sessionId = sessionId
  handles : ∀ sessionId (handles : List String), handles.Nodup → (∀ handle ∈ handles, Owned a.world.guard sessionId handle) →
    handles.length ≤ H
  /-- While an offer can be accepted, there is a session for its peer. -/
  admits : a.peers.length < a.settings.config.limits.maxPeers →
    ∀ epoch, ((CommandGuard.openSession epoch).exec a.world.guard).1 ≠ .error "session_limit"
  /-- While a router may have one more handle there is one, whatever else the bridge is
  doing. -/
  serves : ∀ w, Goes .tidy a.world w → w.born = a.world.born → w.media.closed = a.world.media.closed → ∀ k, (w.routers k).closed = false →
    (w.routers k).handles < (w.routers k).limits.maxHandles →
    ∀ identity leaseMs, ((CommandGuard.openHandleRest identity leaseMs).exec w.guard).1 ≠ .error "handle_limit"
  /-- Once `close` has ended no router is open. -/
  ended : a.closing = .ended → ∀ k, (a.world.routers k).closed = true

theorem openSession_admits {g : CommandGuard} (room : g.sessions.size < g.options.maxSessions) (epoch : String) :
    ((CommandGuard.openSession epoch).exec g).1 ≠ .error "session_limit" := by
  have spec : wp (CommandGuard.openSession epoch) (fun _ _ => True) (fun e _ => e ≠ "session_limit") g := by
    simp only [CommandGuard.openSession, CommandGuard.assertOpen, CommandGuard.issueId, wp_bind, wp_get, wp_ite, wp_throw, wp_pure,
      wp_modify, implies_true, and_true]
    exact ⟨fun _ => by decide, fun _ => ⟨fun _ => by decide, fun _ full => absurd room (not_lt.2 full)⟩⟩
  intro refused
  exact of_wp_error spec (Prod.ext refused rfl) rfl

theorem openHandleRest_serves {g : CommandGuard} (room : g.handles.size < g.options.maxHandles) (identity : CommandIdentity)
    (leaseMs : Nat) : ((CommandGuard.openHandleRest identity leaseMs).exec g).1 ≠ .error "handle_limit" := by
  have spec : wp (CommandGuard.openHandleRest identity leaseMs) (fun _ _ => True) (fun e _ => e ≠ "handle_limit") g := by
    simp only [CommandGuard.openHandleRest, wp_bind, wp_get, wp_ite, wp_throw, wp_set, wp_pure, implies_true, and_true]
    exact ⟨fun _ => by decide, fun _ full => absurd room (not_lt.2 full)⟩
  intro refused
  exact of_wp_error spec (Prod.ext refused rfl) rfl

section Runs

variable {settings : AppSettings η} {limits : GuardOptions} {H : Nat} {a : Runtime η}

/-- The owner of an open router is registered. -/
theorem Hosting.owner (h : Hosting settings limits H a) {k : Nat} (isOpen : (a.world.routers k).closed = false) :
    ∃ i ∈ a.peers, ∃ p, a.made[i]? = some p ∧ p.endpoint.closed = false ∧ p.router = some k := by
  obtain ⟨i, p, found, made⟩ := h.owners k isOpen
  have mem := List.mem_of_getElem? found
  have lives : p.endpoint.closed = false := by
    by_contra closed
    rw [h.released p mem (by simpa using closed) k made] at isOpen
    cases isOpen
  exact ⟨i, (h.registered i p found).2 (h.untold mem lives), p, found, lives, made⟩

theorem Hosting.housed (h : Hosting settings limits H a) :
    Housed a.world H (a.peers.filterMap fun i => (a.made[i]?).bind (·.router)) := by
  refine ⟨h.ledger, h.allowed, fun k isOpen => ?_, fun k mem => ?_⟩
  · obtain ⟨i, mem, p, found, -, made⟩ := h.owner isOpen
    exact List.mem_filterMap.2 ⟨i, mem, by simp [found, made]⟩
  · obtain ⟨i, -, made⟩ := List.mem_filterMap.1 mem
    obtain ⟨p, found, made⟩ := Option.bind_eq_some_iff.1 made
    exact h.born p (List.mem_of_getElem? found) k made

theorem Hosting.roomy (h : Hosting settings limits H a) (sessions : limits.maxSessions = settings.config.limits.maxPeers)
    (handles : limits.maxHandles = H * settings.config.limits.maxPeers) : Roomy H a := by
  have few : (a.peers.filterMap fun i => (a.made[i]?).bind (·.router)).length ≤ a.peers.length := List.length_filterMap_le ..
  constructor
  · rw [h.same]
    exact ⟨h.nodup, h.room⟩
  · intro i p found
    rw [h.registered i p found, (h.whole p (List.mem_of_getElem? found)).notified, Endpoint.told, decide_eq_false_iff_not]
  · intro sessionId has
    obtain ⟨k, -, isOpen, own⟩ := h.housed.session has
    obtain ⟨i, mem, p, found, lives, made⟩ := h.owner isOpen
    exact ⟨i, mem, p, k, found, lives, made, isOpen, own⟩
  · exact fun sessionId handles nodup owned => h.housed.owned_le nodup owned
  · intro room epoch
    apply openSession_admits
    rw [h.same] at room
    rw [h.bounds, sessions]
    exact (h.housed.sessions_le.trans few).trans_lt room
  · intro w goes same media k isOpen room identity leaseMs
    apply openHandleRest_serves
    have whole := fun closed => h.closed (h.ended (h.media (media ▸ closed)))
    have below := (h.housed.goes goes same whole).handles_lt isOpen room
    rw [goes.guard_options, h.bounds, handles, Nat.mul_comm]
    exact below.trans_le (Nat.mul_le_mul_right H (few.trans h.room))
  · exact fun done => h.closed (h.ended done)

end Runs

/-- However offers are accepted, negotiations fail, peers and routers close and sessions
make requests, with a media service that is not closed. -/
theorem capacity_kept {settings : AppSettings η} {H : Nat} (handles : positiveLimit settings.limits.maxHandles = some H)
    {prefixId : String} {clock : Session.Num} {guard : CommandGuard}
    (created : CommandGuard.create prefixId (some (settings.config.limits.maxPeers : ℚ))
      (settings.limits.maxHandles.map (· * settings.config.limits.maxPeers)) (some 250) clock = .ok guard)
    (numbers : NumberText) {media : MediaService} (serving : media.closed = false) {inputs : List (Env η × Input η)}
    (orderly : ∀ i ∈ inputs, Input.Orderly i) : Roomy H ((start settings numbers guard media).run inputs) := by
  obtain ⟨unused, unopened, -, sessions, total⟩ := create_spec created
  have started : Hosting settings guard.options H (start settings numbers guard media) := by
    have ledger : Ledger (World.start numbers guard media : World η) :=
      ⟨start_sane numbers media unused, start_named numbers media unopened unused, fun k born => absurd born (Nat.not_lt_zero k)⟩
    refine ⟨rfl, rfl, ledger, ?_, Nat.zero_le _, List.nodup_nil, ?_, ?_, ?_, ?_, ?_, ?_, ?_, ?_, fun closed => ?_⟩
    case refine_10 => exact absurd closed (by simp [start, World.start, serving])
    all_goals simp [start, World.start, SessionRouter.vacant]
  have kept : Hosting settings guard.options H ((start settings numbers guard media).run inputs) := by
    clear sessions total
    unfold run
    induction inputs using List.reverseRecOn with
    | nil => exact started
    | append_singleton earlier i ih =>
      rw [List.foldl_append]
      exact code_upholds handles (orderly i (by simp)) _ (ih fun j mem => orderly j (by simp [mem]))
  refine kept.roomy (eq_of_positiveLimit sessions) ?_
  rw [natCast_of_positiveLimit handles, Option.map_some, ← Nat.cast_mul] at total
  exact eq_of_positiveLimit total

/-! ## Three offers for two places -/

/-- Each router may have four handles. -/
def rivalSettings : AppSettings Json := ⟨rivalConfig, [⟨guardedTopic, plainCodec, "s"⟩], handlesOf 4, some 8192, some 1000, none⟩

/-- An offer without video. -/
def dataOffer : Arrival :=
  ⟨true, "e", ⟨true, some (textOf ["v=0", "m=application 9 UDP/DTLS/SCTP webrtc-datachannel", "a=max-message-size:1024"])⟩,
    fun _ => false, [], ⟨⟨[], false, true⟩, fun _ => true⟩⟩

/-- The third offer comes too early, and again once the first peer is gone. -/
def threeOffers : List (Env Json × Input Json) :=
  [(.calm 0, .offer dataOffer), (.calm 0, .offer dataOffer), (.calm 0, .offer dataOffer),
    (.calm 0, .bridge (.receive 0 "ros.control.v1" (envelope "hello" []))),
    (.calm 0, .bridge (.receive 0 "ros.control.v1" (envelope "advertise" [("id", "1"), ("topic", "/cmd")]))),
    (.calm 0, .endpoint 0 (.close dataOffer.ends)), (.calm 0, .endpoint 0 (.ended false)), (.calm 0, .endpoint 0 .notified),
    (.calm 0, .offer dataOffer)]

theorem threeOffers_orderly : ∀ i ∈ threeOffers, Input.Orderly i := by
  have calm : ∀ i : Input Json, (∀ reaction, i ≠ .bridge (.outside reaction)) → (∀ options, i ≠ .bridge (.construct options)) →
      i ≠ .bridge .mediaClose → Input.Orderly (Env.calm 0, i) := fun i inside constructs closes =>
    ⟨fun _ => ⟨trivial, trivial, trivial⟩, fun _ => rfl, fun _ => rfl, fun reaction e => absurd e (inside reaction), constructs, closes⟩
  simp only [threeOffers, List.forall_mem_cons, List.not_mem_nil, false_implies, implies_true, and_true]
  refine ⟨?_, ?_, ?_, ?_, ?_, ?_, ?_, ?_, ?_⟩ <;> exact calm _ (by simp) (by simp) (by simp)

theorem capacity_kept_two : ((start rivalSettings plainNumbers smallGuard noMedia).run threeOffers).peers = [1, 2] ∧
    ((start rivalSettings plainNumbers smallGuard noMedia).run threeOffers).world.guard.sessions.keys = ["g:2", "g:4"] ∧
    Roomy 4 ((start rivalSettings plainNumbers smallGuard noMedia).run threeOffers) := by
  have peers : (rivalSettings.config.limits.maxPeers : ℚ) = 2 := by decide +kernel
  have handles : rivalSettings.limits.maxHandles.map (· * (rivalSettings.config.limits.maxPeers : ℚ)) = some 8 := by decide +kernel
  have created : CommandGuard.create "g" (some (rivalSettings.config.limits.maxPeers : ℚ))
      (rivalSettings.limits.maxHandles.map (· * rivalSettings.config.limits.maxPeers)) (some 250) (some 0) = .ok smallGuard := by
    rw [handles, peers]
    rfl
  have four : positiveLimit rivalSettings.limits.maxHandles = some 4 := by decide +kernel
  exact ⟨by decide +kernel, by decide +kernel, capacity_kept four created plainNumbers rfl threeOffers_orderly⟩

end Runtime

end RosBridge.App
