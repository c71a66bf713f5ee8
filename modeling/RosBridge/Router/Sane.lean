import RosBridge.Router.Steps
/-!
# What every reachable bridge satisfies

`SessionRouter.Sane` and `World.Sane` are kept by every step. They are what the methods
rely on: a subscription has a stream that takes messages, a publisher's binding is one
of the router's, the cache accounts for what it holds.
-/

namespace RosBridge.Router

open Lib Session Config Relation CommandGuard

variable {η : Type}

theorem idText_ne_control (p : String) (n : Nat) : idText p n ≠ "control" := by
  intro h
  have colon : ':' ∈ (idText p n).toList := by simp [idText]
  rw [h] at colon
  revert colon
  decide

structure SessionRouter.Sane (r : SessionRouter η) : Prop where
  control : ∀ s, r.queue.streams.get? "control" = some s → s.policy = .reliable
  issued : ∀ id sub, r.subscriptions.get? id = some sub → r.Issued id
  live : ∀ id sub, r.subscriptions.get? id = some sub → r.Live id
  named : ∀ n e, r.entries.get? n = some e → e.binding.publicName = n
  subscribed : ∀ id sub, r.subscriptions.get? id = some sub →
    r.entries.get? sub.entry.binding.publicName = some sub.entry
  advertised : ∀ h p, r.publishers.get? h = some p →
    r.entries.get? p.entry.binding.publicName = some p.entry ∧ p.guarded = p.entry.binding.commandGuard.isSome
  limit : r.queue.options.maxMessageBytes = r.maxBytes
  cache : r.cache.Sound
  plain : ∀ id e, r.cache.entries.get? id = some e → e.output.envelope.stream = none

structure World.Sane (w : World η) : Prop where
  routers : ∀ k, (w.routers k).Sane
  handles : ∀ h st, w.guard.handles.get? h = some st →
    st.identity.handle = h ∧ ∃ n, n ≤ w.guard.nextId ∧ h = idText w.guard.prefixId n
  guarded : ∀ k h p, (w.routers k).publishers.get? h = some p → p.guarded = true →
    ∃ n, n ≤ w.guard.nextId ∧ h = idText w.guard.prefixId n
  attached : ∀ k v track b, (w.routers k).video = some v → v.bound.get? track = some b → b.attached = true →
    track ∈ w.media.tracks
  unborn : ∀ k, w.born ≤ k → (w.routers k).closed = true
  silent : ∀ k, w.born ≤ k → (w.routers k).subscriptions = .empty ∧ (w.routers k).entries = .empty

namespace SessionRouter

variable {r r' : SessionRouter η}

/-- A subscription's stream is not the control stream. -/
theorem Sane.ne_control (h : r.Sane) {id : String} {sub : Subscription η} (found : r.subscriptions.get? id = some sub) :
    id ≠ "control" := by
  obtain ⟨n, -, rfl⟩ := h.issued id sub found
  exact idText_ne_control _ _

/-- What is registered after a stream has been replaced. -/
theorem live_set {q : DeliveryQueue Bytes} {stream id : String} {s : Stream Bytes}
    (streams : q.streams = r.queue.streams.set stream s) (live : s.stopped = false) (h : r.Live id) :
    ({ r with queue := q } : SessionRouter η).Live id := by
  obtain ⟨t, found, ht⟩ := h
  by_cases e : id = stream
  · exact ⟨s, by simp [streams, e], live⟩
  · exact ⟨t, by simpa [streams, Table.get?_set_ne _ _ e] using found, ht⟩

theorem live_set_ne {q : DeliveryQueue Bytes} {stream id : String} {s : Stream Bytes}
    (streams : q.streams = r.queue.streams.set stream s) (other : id ≠ stream) (h : r.Live id) :
    ({ r with queue := q } : SessionRouter η).Live id := by
  obtain ⟨t, found, ht⟩ := h
  exact ⟨t, by simpa [streams, Table.get?_set_ne _ _ other] using found, ht⟩

theorem live_erase {q : DeliveryQueue Bytes} {stream id : String} (streams : q.streams = r.queue.streams.erase stream)
    (other : id ≠ stream) (h : r.Live id) : ({ r with queue := q } : SessionRouter η).Live id := by
  obtain ⟨t, found, ht⟩ := h
  exact ⟨t, by simpa [streams, Table.get?_erase_ne _ other] using found, ht⟩

/-- Another queue of the same options, whose control stream is reliable and which has
the streams of all subscriptions. -/
theorem Sane.withQueue (h : r.Sane) {q : DeliveryQueue Bytes} (options : q.options = r.queue.options)
    (control : ∀ s, q.streams.get? "control" = some s → s.policy = .reliable)
    (live : ∀ id sub, r.subscriptions.get? id = some sub → ({ r with queue := q } : SessionRouter η).Live id) :
    ({ r with queue := q } : SessionRouter η).Sane :=
  ⟨control, h.issued, live, h.named, h.subscribed, h.advertised, (congrArg _ options).trans h.limit, h.cache, h.plain⟩

/-- A stream may be replaced by one of the same policy, unless that stops a
subscription. -/
theorem Sane.setStream (h : r.Sane) {q : DeliveryQueue Bytes} {id : String} {s s' : Stream Bytes}
    (options : q.options = r.queue.options) (found : r.queue.streams.get? id = some s)
    (streams : q.streams = r.queue.streams.set id s') (policy : s'.policy = s.policy)
    (live : s'.stopped = false ∨ id = "control") : ({ r with queue := q } : SessionRouter η).Sane := by
  refine h.withQueue options (fun t ht => ?_) fun j sub hj => ?_
  · rw [streams, Table.get?_set] at ht
    split at ht
    · next e =>
      obtain rfl := Option.some.inj ht
      exact policy.trans (h.control s (e ▸ found))
    · exact h.control t ht
  · rcases live with live | rfl
    · exact live_set streams live (h.live j sub hj)
    · exact live_set_ne streams (h.ne_control hj) (h.live j sub hj)

theorem Sane.marked (h : r.Sane) (m : Mark η) : (r.marked m).Sane :=
  ⟨h.control, h.issued, h.live, h.named, h.subscribed, h.advertised, h.limit, h.cache, h.plain⟩

theorem Sane.unsubscribe (h : r.Sane) {stream : String} {q : DeliveryQueue Bytes} (options : q.options = r.queue.options)
    (streams : q.streams = r.queue.streams.erase stream) : (r.unsubscribe stream q).Sane where
  control s hs := by
    simp only [SessionRouter.unsubscribe, streams, Table.get?_erase] at hs
    split at hs
    · cases hs
    · exact h.control s hs
  issued j sub hj := by
    simp only [SessionRouter.unsubscribe, Table.get?_erase] at hj
    split at hj
    · cases hj
    · exact h.issued j sub hj
  live j sub hj := by
    simp only [SessionRouter.unsubscribe, Table.get?_erase] at hj
    split at hj
    · cases hj
    · next other => exact live_erase streams other (h.live j sub hj)
  named := h.named
  subscribed j sub hj := by
    simp only [SessionRouter.unsubscribe, Table.get?_erase] at hj
    split at hj
    · cases hj
    · exact h.subscribed j sub hj
  advertised := h.advertised
  limit := (congrArg _ options).trans h.limit
  cache := h.cache
  plain := h.plain

/-- A change of subscriptions that keeps their entries. -/
theorem Sane.modify (h : r.Sane) (id : String) (f : Subscription η → Subscription η) (entry : ∀ s, (f s).entry = s.entry)
    (trace : List (Mark η)) :
    ({ r with subscriptions := r.subscriptions.modify id f, trace := trace } : SessionRouter η).Sane := by
  have back : ∀ j sub, (r.subscriptions.modify id f).get? j = some sub →
      ∃ sub₀, r.subscriptions.get? j = some sub₀ ∧ sub.entry = sub₀.entry := by
    intro j sub hj
    rw [Table.get?_modify] at hj
    split at hj
    · next e =>
      obtain ⟨sub₀, h₀, rfl⟩ := Option.map_eq_some_iff.1 hj
      exact ⟨sub₀, e ▸ h₀, entry sub₀⟩
    · exact ⟨sub, hj, rfl⟩
  refine ⟨h.control, fun j sub hj => ?_, fun j sub hj => ?_, h.named, fun j sub hj => ?_, h.advertised, h.limit, h.cache, h.plain⟩
  · obtain ⟨sub₀, h₀, -⟩ := back j sub hj
    exact h.issued j sub₀ h₀
  · obtain ⟨sub₀, h₀, -⟩ := back j sub hj
    exact h.live j sub₀ h₀
  · obtain ⟨sub₀, h₀, e⟩ := back j sub hj
    rw [e]
    exact h.subscribed j sub₀ h₀

theorem Sane.number (h : r.Sane) (stream : String) (seq : Nat) (native : η) : (r.number stream seq native).Sane :=
  h.modify stream _ (by intro _; rfl) _

theorem Sane.subscribe (h : r.Sane) {entry : RouterBinding η}
    (found : r.entries.get? entry.binding.publicName = some entry) : (r.subscribe entry).Sane where
  control s hs := by
    have other : "control" ≠ r.nextStream := fun e => idText_ne_control _ _ e.symm
    simp only [SessionRouter.subscribe, Table.get?_set_ne _ _ other] at hs
    exact h.control s hs
  issued j sub hj := by
    simp only [SessionRouter.subscribe, Table.get?_set] at hj
    split at hj
    · next e => exact ⟨r.nextId + 1, le_refl _, e⟩
    · obtain ⟨n, hn, e⟩ := h.issued j sub hj
      exact ⟨n, hn.trans (Nat.le_succ _), e⟩
  live j sub hj := by
    simp only [SessionRouter.subscribe, Table.get?_set] at hj
    split at hj
    · next e => exact ⟨_, by rw [e]; exact Table.get?_set_self _ _ _, rfl⟩
    · next other =>
      obtain ⟨s, hs, live⟩ := h.live j sub hj
      exact ⟨s, (Table.get?_set_ne _ _ other).trans hs, live⟩
  named := h.named
  subscribed j sub hj := by
    simp only [SessionRouter.subscribe, Table.get?_set] at hj
    split at hj
    · obtain rfl := Option.some.inj hj
      exact found
    · exact h.subscribed j sub hj
  advertised := h.advertised
  limit := h.limit
  cache := h.cache
  plain := h.plain

theorem Sane.advertise (h : r.Sane) {entry : RouterBinding η} (handle : String)
    (found : r.entries.get? entry.binding.publicName = some entry) : (r.advertise handle entry).Sane := by
  refine ⟨h.control, h.issued, h.live, h.named, h.subscribed, fun j p hj => ?_, h.limit, h.cache, h.plain⟩
  simp only [SessionRouter.advertise, Table.get?_set] at hj
  split at hj
  · obtain rfl := Option.some.inj hj
    exact ⟨found, rfl⟩
  · exact h.advertised j p hj

theorem Sane.unadvertise (h : r.Sane) (handle : String) : (r.unadvertise handle).Sane := by
  refine ⟨h.control, h.issued, h.live, h.named, h.subscribed, fun j p hj => ?_, h.limit, h.cache, h.plain⟩
  simp only [SessionRouter.unadvertise, Table.get?_erase] at hj
  split at hj
  · cases hj
  · exact h.advertised j p hj

theorem Sane.withCache (h : r.Sane) {c : RequestCache} (sound : c.Sound)
    (plain : ∀ id e, c.entries.get? id = some e → e.output.envelope.stream = none) (trace : List (Mark η)) :
    ({ r with cache := c, trace := trace } : SessionRouter η).Sane :=
  ⟨h.control, h.issued, h.live, h.named, h.subscribed, h.advertised, h.limit, sound, plain⟩

theorem Sane.store (h : r.Sane) {id input : String} {output : Bytes} (t : ℚ)
    (storable : Storable r.cache id input output) : (r.store id input output t).Sane :=
  h.withCache (h.cache.store t storable) (fun i e found => by
    rw [RequestCache.store_after, Table.get?_set] at found
    split at found
    · obtain rfl := Option.some.inj found
      exact storable.plain
    · exact h.plain i e found) _

theorem Sane.finished (h : r.Sane) : r.finished.Sane where
  control s hs := by simp [SessionRouter.finished, DeliveryQueue.clear, Prog.after] at hs
  issued j sub hj := by simp [SessionRouter.finished] at hj
  live j sub hj := by simp [SessionRouter.finished] at hj
  named := h.named
  subscribed j sub hj := by simp [SessionRouter.finished] at hj
  advertised j p hj := by simp [SessionRouter.finished] at hj
  limit := h.limit
  cache := RequestCache.sound_clear
  plain i e found := by simp [SessionRouter.finished, RequestCache.clear, Prog.after] at found

theorem Fresh.sane (h : r.Fresh) : r.Sane where
  control s hs := by
    rw [h.streams, Table.get?_set_self] at hs
    exact Option.some.inj hs ▸ rfl
  issued j sub hj := by simp [h.subscriptions] at hj
  live j sub hj := by simp [h.subscriptions] at hj
  named := h.named
  subscribed j sub hj := by simp [h.subscriptions] at hj
  advertised j p hj := by simp [h.publishers] at hj
  limit := h.limit
  cache := by
    obtain ⟨maxBytes, e⟩ := h.cache
    rw [e]
    exact RequestCache.sound_create _ _ _
  plain i e found := by
    obtain ⟨maxBytes, created⟩ := h.cache
    simp [created, RequestCache.create] at found

end SessionRouter

section Moves

variable {numbers : NumberText} {allow : Allow} {media : MediaService} {r r' : SessionRouter η}

theorem Control.sane {bytes : Bytes} (c : Control r bytes r') (h : r.Sane) : r'.Sane := by
  cases c with
  | queued s q found live options streams => exact (h.setStream options found streams rfl (.inl live)).marked _
  | jammed s q found live options streams => exact h.setStream options found streams rfl (.inr rfl)
  | dead dead => exact h

theorem Announced.sane {envelope : Envelope} (a : Announced numbers allow r envelope r') (h : r.Sane) : r'.Sane := by
  cases a with
  | announced id input t _ cached storable now control => exact control.sane (h.store t storable)
  | large large => exact h

theorem Sent.sane {q : DeliveryQueue Bytes} {stream : String} {next : Bytes} {accepted : Bool}
    (s : Sent r.queue stream next accepted q) (h : r.Sane) (channel : Channel) :
    ({ r with queue := q }.marked (.handed channel next.envelope accepted)).Sane := by
  cases s with
  | refused s rest found live head => exact h.marked _
  | accepted s rest _ found live head options streams =>
    exact (h.setStream options found streams (by rfl) (.inl live)).marked _

theorem Move.sane (m : Move numbers allow media r r') (h : r.Sane) : r'.Sane := by
  cases m with
  | counted | ticked =>
    exact ⟨h.control, h.issued, h.live, h.named, h.subscribed, h.advertised, h.limit, h.cache, h.plain⟩
  | flagged | bound =>
    exact ⟨h.control, h.issued, h.live, h.named, h.subscribed, h.advertised, h.limit, h.cache, h.plain⟩
  | issued =>
    refine ⟨h.control, fun j sub hj => ?_, h.live, h.named, h.subscribed, h.advertised, h.limit, h.cache, h.plain⟩
    obtain ⟨n, hn, e⟩ := h.issued j sub hj
    exact ⟨n, hn.trans (Nat.le_succ _), e⟩
  | control bytes _ control => exact control.sane h
  | readied stream sub found => exact h.modify stream _ (by intro _; rfl) _
  | paced stream t => exact h.modify stream _ (by intro _; rfl) _
  | sampled stream sub native data ok q found ready fits encoded stored options =>
    cases stored with
    | stored s _ here live streams =>
      exact (h.number stream sub.seq native).setStream options here streams (by rfl) (.inl live)
    | dropped s _ here live policy streams =>
      exact (h.number stream sub.seq native).setStream options here streams (by rfl) (.inl live)
  | unsubscribed | detaching => exact h.marked _
  | advertised entry isOpen found direction unguarded room =>
    have issued : ({ r with nextId := r.nextId + 1 } : SessionRouter η).Sane := by
      refine ⟨h.control, fun j sub hj => ?_, h.live, h.named, h.subscribed, h.advertised, h.limit, h.cache, h.plain⟩
      obtain ⟨n, hn, e⟩ := h.issued j sub hj
      exact ⟨n, hn.trans (Nat.le_succ _), e⟩
    exact issued.advertise _ found
  | unadvertised handle p found unguarded => exact h.unadvertise handle
  | admitted handle entry seq t now due =>
    refine ⟨h.control, h.issued, h.live, h.named, h.subscribed, fun j p hj => ?_, h.limit, h.cache, h.plain⟩
    rw [Table.get?_modify] at hj
    split at hj
    · obtain ⟨p₀, h₀, rfl⟩ := Option.map_eq_some_iff.1 hj
      exact h.advertised _ p₀ h₀
    · exact h.advertised j p hj
  | expired t cached past =>
    exact h.withCache (h.cache.expire t) (fun i e found => h.plain i e ((RequestCache.get?_expire t r.cache i e).1 found).1) r.trace
  | stored id input output t cached storable now => exact h.store t storable

end Moves

/-! ## Steps -/

section Steps

variable {allow : Allow} {w w' : World η} {k : Nat} {r : SessionRouter η}

theorem Turn.sane (t : Turn allow w k r) (h : (w.routers k).Sane) : r.Sane := by
  cases t with
  | move _ move => exact move.sane h
  | advertised handle entry n found direction guarded issued bound room => exact h.advertise handle found
  | unadvertised handle p found guarded => exact h.unadvertise handle
  | subscribed entry requestId _ isOpen found free room announced => exact announced.sane (h.subscribe found)
  | removed stream sub q found options streams => exact h.unsubscribe options streams
  | spoiled stream sub native q found ready fits options streams =>
    exact (h.number stream sub.seq native).unsubscribe options streams
  | handedControl next accepted q sent => exact sent.sane h .control
  | handedData stream sub next accepted q found isOpen idle sent => exact sent.sane h _
  | published => exact h.marked _
  | finished => exact h.finished
  | torn => exact ⟨h.control, h.issued, h.live, h.named, h.subscribed, h.advertised, h.limit, h.cache, h.plain⟩

/-- The fields of a router that nothing but its end changes. -/
structure SessionRouter.Same (r r' : SessionRouter η) : Prop where
  sessionId : r'.sessionId = r.sessionId
  epoch : r'.epoch = r.epoch
  limits : r'.limits = r.limits
  maxBytes : r'.maxBytes = r.maxBytes
  entries : r'.entries = r.entries
  closed : r'.closed = r.closed

theorem Control.same {bytes : Bytes} {r r' : SessionRouter η} (c : Control r bytes r') :
    r.Same r' ∧ r'.publishers = r.publishers ∧ r'.video = r.video := by
  cases c with
  | queued | jammed | dead => exact ⟨⟨rfl, rfl, rfl, rfl, rfl, rfl⟩, rfl, rfl⟩

theorem Announced.same {numbers : NumberText} {envelope : Envelope} {r r' : SessionRouter η}
    (a : Announced numbers allow r envelope r') : r.Same r' ∧ r'.publishers = r.publishers ∧ r'.video = r.video := by
  cases a with
  | announced id input t _ cached storable now control =>
    obtain ⟨same, publishers, video⟩ := control.same
    exact ⟨⟨same.1, same.2, same.3, same.4, same.5, same.6⟩, publishers, video⟩
  | large => exact ⟨⟨rfl, rfl, rfl, rfl, rfl, rfl⟩, rfl, rfl⟩

theorem Move.same {numbers : NumberText} {media : MediaService} {r r' : SessionRouter η}
    (m : Move numbers allow media r r') : r.Same r' := by
  cases m with
  | control bytes _ control => exact control.same.1
  | _ => exact ⟨rfl, rfl, rfl, rfl, rfl, rfl⟩

/-- What a turn keeps. -/
structure SessionRouter.Kept (r r' : SessionRouter η) : Prop where
  sessionId : r'.sessionId = r.sessionId
  epoch : r'.epoch = r.epoch
  limits : r'.limits = r.limits
  maxBytes : r'.maxBytes = r.maxBytes
  entries : r'.entries = r.entries
  closed : r.closed = true → r'.closed = true
  lastTime : r.lastTime ≤ r'.lastTime
  nextId : r.nextId ≤ r'.nextId
  welcomed : r.welcomed = true → r'.welcomed = true

theorem SessionRouter.Kept.refl (r : SessionRouter η) : r.Kept r := ⟨rfl, rfl, rfl, rfl, rfl, id, le_refl _, le_refl _, id⟩

theorem SessionRouter.Kept.trans {r r' r'' : SessionRouter η} (h : r.Kept r') (h' : r'.Kept r'') : r.Kept r'' :=
  ⟨h'.1.trans h.1, h'.2.trans h.2, h'.3.trans h.3, h'.4.trans h.4, h'.5.trans h.5, fun c => h'.6 (h.6 c), h.7.trans h'.7,
    h.8.trans h'.8, fun c => h'.9 (h.9 c)⟩

theorem Control.kept {bytes : Bytes} {r r' : SessionRouter η} (c : Control r bytes r') : r.Kept r' := by
  cases c with
  | queued | jammed | dead => exact ⟨rfl, rfl, rfl, rfl, rfl, id, le_refl _, le_refl _, id⟩

theorem Announced.kept {numbers : NumberText} {envelope : Envelope} {r r' : SessionRouter η}
    (a : Announced numbers allow r envelope r') : r.Kept r' := by
  cases a with
  | announced id input t _ cached storable now control =>
    have stored : r.Kept (r.store id input (encode numbers envelope) t) := ⟨rfl, rfl, rfl, rfl, rfl, fun h => h, le_refl _, le_refl _, fun h => h⟩
    exact stored.trans control.kept
  | large => exact .refl r

theorem Move.kept {numbers : NumberText} {media : MediaService} {r r' : SessionRouter η}
    (m : Move numbers allow media r r') : r.Kept r' := by
  cases m with
  | control bytes _ control => exact control.kept
  | counted window count welcomed still => exact ⟨rfl, rfl, rfl, rfl, rfl, id, le_refl _, le_refl _, still⟩
  | ticked t later => exact ⟨rfl, rfl, rfl, rfl, rfl, id, later, le_refl _, id⟩
  | issued | advertised => exact ⟨rfl, rfl, rfl, rfl, rfl, id, le_refl _, Nat.le_succ _, id⟩
  | _ => exact ⟨rfl, rfl, rfl, rfl, rfl, id, le_refl _, le_refl _, id⟩

theorem Turn.kept (t : Turn allow w k r) : (w.routers k).Kept r := by
  cases t with
  | move _ move => exact move.kept
  | subscribed entry requestId _ isOpen found free room announced =>
    have opened : (w.routers k).Kept ((w.routers k).subscribe entry) := ⟨rfl, rfl, rfl, rfl, rfl, id, le_refl _, Nat.le_succ _, id⟩
    exact opened.trans announced.kept
  | finished | torn => exact ⟨rfl, rfl, rfl, rfl, rfl, fun _ => rfl, le_refl _, le_refl _, id⟩
  | _ => exact ⟨rfl, rfl, rfl, rfl, rfl, id, le_refl _, le_refl _, id⟩

theorem Control.subscriptions {bytes : Bytes} {r r' : SessionRouter η} (c : Control r bytes r') :
    r'.subscriptions = r.subscriptions := by
  cases c with
  | queued | jammed | dead => rfl

/-- Where a subscription comes from. -/
theorem Move.subscription {numbers : NumberText} {media : MediaService} {r r' : SessionRouter η}
    (m : Move numbers allow media r r') {id : String} {sub : Subscription η} (found : r'.subscriptions.get? id = some sub) :
    ∃ sub₀, r.subscriptions.get? id = some sub₀ ∧ sub.entry = sub₀.entry := by
  have modified : ∀ {stream : String} {f : Subscription η → Subscription η}, (∀ s, (f s).entry = s.entry) →
      (r.subscriptions.modify stream f).get? id = some sub → ∃ sub₀, r.subscriptions.get? id = some sub₀ ∧ sub.entry = sub₀.entry := by
    intro stream f entry found
    rw [Table.get?_modify] at found
    split at found
    · next e =>
      obtain ⟨sub₀, h₀, rfl⟩ := Option.map_eq_some_iff.1 found
      exact ⟨sub₀, e ▸ h₀, entry sub₀⟩
    · exact ⟨sub, found, rfl⟩
  cases m with
  | control bytes _ control => exact ⟨sub, control.subscriptions ▸ found, rfl⟩
  | readied stream sub' here => exact modified (by intro _; rfl) found
  | paced stream t => exact modified (by intro _; rfl) found
  | sampled stream sub' native data ok q here ready fits encoded stored options => exact modified (by intro _; rfl) found
  | _ => exact ⟨sub, found, rfl⟩

theorem Announced.subscriptions {numbers : NumberText} {envelope : Envelope} {r r' : SessionRouter η}
    (a : Announced numbers allow r envelope r') : r'.subscriptions = r.subscriptions := by
  cases a with
  | announced id input t _ cached storable now control => exact control.subscriptions
  | large => rfl

theorem Turn.subscription (t : Turn allow w k r) {id : String} {sub : Subscription η}
    (found : r.subscriptions.get? id = some sub) :
    (∃ sub₀, (w.routers k).subscriptions.get? id = some sub₀ ∧ sub.entry = sub₀.entry) ∨
      (w.routers k).closed = false ∧ id = (w.routers k).nextStream ∧ ∃ entry requestId, sub = ⟨entry, false, 0, 0⟩ ∧
        Announced w.numbers allow ((w.routers k).subscribe entry)
          (.subscribed requestId (w.routers k).nextStream (w.routers k).epoch entry.schemaId) r := by
  have erased : ∀ stream, ((w.routers k).subscriptions.erase stream).get? id = some sub →
      ∃ sub₀, (w.routers k).subscriptions.get? id = some sub₀ ∧ sub.entry = sub₀.entry := by
    intro stream found
    rw [Table.get?_erase] at found
    split at found
    · cases found
    · exact ⟨sub, found, rfl⟩
  cases t with
  | move _ move => exact .inl (move.subscription found)
  | subscribed entry requestId _ isOpen here free room announced =>
    simp only [announced.subscriptions, SessionRouter.subscribe, Table.get?_set] at found
    split at found
    · next e => exact .inr ⟨isOpen, e, entry, requestId, (Option.some.inj found).symm, announced⟩
    · exact .inl ⟨sub, found, rfl⟩
  | removed stream sub' q here options streams => exact .inl (erased stream found)
  | spoiled stream sub' native q here ready fits options streams =>
    simp only [SessionRouter.unsubscribe, SessionRouter.number, Table.get?_erase] at found
    split at found
    · cases found
    · next other =>
      rw [Table.get?_modify, if_neg other] at found
      exact .inl ⟨sub, found, rfl⟩
  | finished => simp [SessionRouter.finished] at found
  | _ => exact .inl ⟨sub, found, rfl⟩

/-- Where a publisher comes from. -/
theorem Move.publisher {numbers : NumberText} {media : MediaService} {r r' : SessionRouter η}
    (m : Move numbers allow media r r') {h : String} {p : Publisher η} (found : r'.publishers.get? h = some p) :
    (∃ p₀, r.publishers.get? h = some p₀ ∧ p.entry = p₀.entry ∧ p.guarded = p₀.guarded) ∨
      h = r.nextStream ∧ p.guarded = false := by
  cases m with
  | control bytes _ control => exact .inl ⟨p, control.same.2.1 ▸ found, rfl, rfl⟩
  | advertised entry isOpen here direction unguarded room =>
    simp only [SessionRouter.advertise, Table.get?_set] at found
    split at found
    · next e =>
      obtain rfl := Option.some.inj found
      exact .inr ⟨e, by simp [unguarded]⟩
    · exact .inl ⟨p, found, rfl, rfl⟩
  | unadvertised handle q here unguarded =>
    simp only [SessionRouter.unadvertise, Table.get?_erase] at found
    split at found
    · cases found
    · exact .inl ⟨p, found, rfl, rfl⟩
  | admitted handle entry seq t now due =>
    rw [Table.get?_modify] at found
    split at found
    · next e =>
      obtain ⟨p₀, h₀, rfl⟩ := Option.map_eq_some_iff.1 found
      exact .inl ⟨p₀, e ▸ h₀, rfl, rfl⟩
    · exact .inl ⟨p, found, rfl, rfl⟩
  | _ => exact .inl ⟨p, found, rfl, rfl⟩

theorem Turn.publisher (t : Turn allow w k r) {h : String} {p : Publisher η} (found : r.publishers.get? h = some p) :
    (∃ p₀, (w.routers k).publishers.get? h = some p₀ ∧ p.entry = p₀.entry ∧ p.guarded = p₀.guarded) ∨
      h = (w.routers k).nextStream ∧ p.guarded = false ∨
      ∃ n, n ≤ w.guard.nextId ∧ h = idText w.guard.prefixId n ∧ p.guarded = true := by
  cases t with
  | move _ move =>
    rcases move.publisher found with old | new
    · exact .inl old
    · exact .inr (.inl new)
  | advertised handle entry n here direction guarded issued bound room =>
    simp only [SessionRouter.advertise, Table.get?_set] at found
    split at found
    · next e =>
      obtain rfl := Option.some.inj found
      exact .inr (.inr ⟨n, bound, e.trans issued, guarded⟩)
    · exact .inl ⟨p, found, rfl, rfl⟩
  | unadvertised handle q here guarded =>
    simp only [SessionRouter.unadvertise, Table.get?_erase] at found
    split at found
    · cases found
    · exact .inl ⟨p, found, rfl, rfl⟩
  | subscribed entry requestId _ isOpen here free room announced =>
    rw [announced.same.2.1] at found
    exact .inl ⟨p, found, rfl, rfl⟩
  | finished => simp [SessionRouter.finished] at found
  | _ => exact .inl ⟨p, found, rfl, rfl⟩

theorem Turn.attached (t : Turn allow w k r) {v : VideoRouter} {track : String} {b : Binding} (video : r.video = some v)
    (found : v.bound.get? track = some b) (attached : b.attached = true) :
    (∃ v₀ b₀, (w.routers k).video = some v₀ ∧ v₀.bound.get? track = some b₀ ∧ b₀.attached = true) ∨
      track ∈ w.media.tracks := by
  have same : r.video = (w.routers k).video → ∃ v₀ b₀, (w.routers k).video = some v₀ ∧ v₀.bound.get? track = some b₀ ∧
      b₀.attached = true := fun e => ⟨v, b, e ▸ video, found, attached⟩
  cases t with
  | move _ move =>
    cases move with
    | control bytes _ control => exact .inl (same control.same.2.2)
    | flagged track' f slot known =>
      obtain ⟨v₀, h₀, rfl⟩ := Option.map_eq_some_iff.1 video
      rw [Table.get?_modify] at found
      split at found
      · next e =>
        obtain ⟨b₀, hb₀, rfl⟩ := Option.map_eq_some_iff.1 found
        rcases known b₀ attached with before | now
        · exact .inl ⟨v₀, b₀, h₀, e ▸ hb₀, before⟩
        · exact .inr (e ▸ now)
      · exact .inl ⟨v₀, b, h₀, found, attached⟩
    | bound v₀ track' i slot h₀ new free fits =>
      obtain rfl := Option.some.inj video
      rw [Table.get?_set] at found
      split at found
      · obtain rfl := Option.some.inj found
        cases attached
      · exact .inl ⟨v₀, b, h₀, found, attached⟩
    | _ => exact .inl (same rfl)
  | subscribed entry requestId _ isOpen here free room announced => exact .inl (same announced.same.2.2)
  | finished =>
    obtain ⟨v₀, h₀, rfl⟩ := Option.map_eq_some_iff.1 video
    rw [Table.get?_mapValues] at found
    obtain ⟨b₀, -, rfl⟩ := Option.map_eq_some_iff.1 found
    cases attached
  | torn v₀ f marks isOpen h₀ torn less marked =>
    obtain rfl := Option.some.inj video
    rw [Table.get?_mapValues] at found
    obtain ⟨b₀, hb₀, rfl⟩ := Option.map_eq_some_iff.1 found
    exact .inl ⟨v₀, b₀, h₀, hb₀, (less track b₀).attached attached⟩
  | _ => exact .inl (same rfl)

/-- What a step does to the guard as a whole. -/
structure Onward (g g' : CommandGuard) : Prop where
  prefixId : g'.prefixId = g.prefixId
  nextId : g.nextId ≤ g'.nextId

theorem Step.onward (s : Step allow w w') : Onward w.guard w'.guard := by
  cases s with
  | tended cause g notes tended => exact ⟨tended.prefixId, tended.nextId⟩
  | constructed => exact ⟨rfl, Nat.le_succ _⟩
  | _ => exact ⟨rfl, le_refl _⟩

/-- Where a handle of the guard comes from. -/
theorem Step.handle (s : Step allow w w') {h : String} {st : HandleState} (found : w'.guard.handles.get? h = some st) :
    (∃ st₀, w.guard.handles.get? h = some st₀ ∧ st.identity = st₀.identity) ∨
      st.identity.handle = h ∧ w.guard.sessions.has st.identity.sessionId ∧
        ∃ n, n ≤ w.guard.nextId ∧ h = idText w.guard.prefixId n := by
  have erased : ∀ j, (w.guard.handles.erase j).get? h = some st →
      ∃ st₀, w.guard.handles.get? h = some st₀ ∧ st.identity = st₀.identity := by
    intro j e
    rw [Table.get?_erase] at e
    split at e
    · cases e
    · exact ⟨st, e, rfl⟩
  have revoked : ∀ sid, ((revokeSession sid).after w.guard).handles.get? h = some st →
      ∃ st₀, w.guard.handles.get? h = some st₀ ∧ st.identity = st₀.identity := by
    intro sid e
    rw [revokeSession_after, Table.get?_filter] at e
    exact ⟨st, (Option.filter_eq_some_iff.1 e).1, rfl⟩
  cases s with
  | tended cause g notes tended =>
    rcases tended.change.origin found with old | rfl
    · exact .inl old
    · cases tended.recorded
  | handleTaken sessionId handle _ wild own owner => exact .inl (erased _ found)
  | sessionTaken sessionId wild => exact .inl (revoked _ found)
  | handleOpened j entry identity leaseMs n here direction guarded owner topic issued bound absent session capacity room =>
    dsimp only at found
    rw [Table.get?_set] at found
    split at found
    · next e =>
      obtain rfl := Option.some.inj found
      exact .inr ⟨e.symm, session, n, bound, e.trans issued⟩
    · exact .inl ⟨st, found, rfl⟩
  | handleClosed j handle p _ here guarded own owner => exact .inl (erased _ found)
  | closed j gone isOpen only all => exact .inl (revoked _ found)
  | _ => exact .inl ⟨st, found, rfl⟩

theorem Step.born (s : Step allow w w') : w.born ≤ w'.born := by
  cases s with
  | constructed => exact Nat.le_succ _
  | _ => exact le_refl _

theorem Step.tracks (s : Step allow w w') : w'.media.tracks = w.media.tracks := by
  cases s <;> rfl

theorem Step.numbers (s : Step allow w w') : w'.numbers = w.numbers := by
  cases s <;> rfl

theorem Step.sane (s : Step allow w w') (h : w.Sane) : w'.Sane where
  routers k := by
    rcases s.turn k with same | turn | born
    · exact same ▸ h.routers k
    · exact turn.sane (h.routers k)
    · exact born.fresh.sane
  handles j st found := by
    obtain ⟨prefixId, nextId⟩ := s.onward
    rcases s.handle found with ⟨st₀, h₀, e⟩ | ⟨own, -, n, hn, e⟩
    · obtain ⟨own, n, hn, e'⟩ := h.handles j st₀ h₀
      exact ⟨e ▸ own, n, hn.trans nextId, prefixId ▸ e'⟩
    · exact ⟨own, n, hn.trans nextId, prefixId ▸ e⟩
  guarded k j p found guarded := by
    obtain ⟨prefixId, nextId⟩ := s.onward
    have old : ∀ p₀, (w.routers k).publishers.get? j = some p₀ → p₀.guarded = true →
        ∃ n, n ≤ w'.guard.nextId ∧ j = idText w'.guard.prefixId n := by
      intro p₀ h₀ g₀
      obtain ⟨n, hn, e⟩ := h.guarded k j p₀ h₀ g₀
      exact ⟨n, hn.trans nextId, prefixId ▸ e⟩
    rcases s.turn k with same | turn | born
    · exact old p (same ▸ found) guarded
    · rcases turn.publisher found with ⟨p₀, h₀, -, g₀⟩ | ⟨-, unguarded⟩ | ⟨n, hn, e, -⟩
      · exact old p₀ h₀ (g₀ ▸ guarded)
      · rw [unguarded] at guarded
        cases guarded
      · exact ⟨n, hn.trans nextId, prefixId ▸ e⟩
    · simp [born.fresh.publishers] at found
  attached k v track b video found attached := by
    rw [s.tracks]
    rcases s.turn k with same | turn | born
    · exact h.attached k v track b (same ▸ video) found attached
    · rcases turn.attached video found attached with ⟨v₀, b₀, hv, hb, ha⟩ | known
      · exact h.attached k v₀ track b₀ hv hb ha
      · exact known
    · simp [born.fresh.video v video] at found
  unborn k hk := by
    have before := h.unborn k (s.born.trans hk)
    rcases s.turn k with same | turn | born
    · exact same ▸ before
    · exact turn.kept.closed before
    · rw [born.born] at hk
      exact absurd hk (Nat.not_succ_le_self k)
  silent k hk := by
    have before := h.silent k (s.born.trans hk)
    rcases s.turn k with same | turn | born
    · exact same ▸ before
    · refine ⟨?_, turn.kept.entries.trans before.2⟩
      apply Table.ext_entries
      by_contra some
      obtain ⟨⟨id, sub⟩, mem⟩ := List.exists_mem_of_ne_nil _ some
      rcases turn.subscription (Table.mem_entries_iff.1 mem) with ⟨sub₀, h₀, -⟩ | ⟨isOpen, -⟩
      · simp [before.1] at h₀
      · rw [h.unborn k (s.born.trans hk)] at isOpen
        cases isOpen
    · rw [born.born] at hk
      exact absurd hk (Nat.not_succ_le_self k)

theorem Goes.sane (g : Goes allow w w') (h : w.Sane) : w'.Sane := by
  induction g with
  | refl => exact h
  | tail _ s ih => exact s.sane ih

theorem Goes.born (g : Goes allow w w') : w.born ≤ w'.born := by
  induction g with
  | refl => exact le_refl _
  | tail _ s ih => exact ih.trans s.born

/-- A step leaves a router that was constructed before alone, or takes one of its turns. -/
theorem Step.turn_of_born (s : Step allow w w') (born : k < w.born) :
    w'.routers k = w.routers k ∨ Turn allow w k (w'.routers k) := by
  rcases s.turn k with same | turn | new
  · exact .inl same
  · exact .inr turn
  · exact absurd born (by rw [new.number]; exact Nat.lt_irrefl _)

theorem Step.kept (s : Step allow w w') (born : k < w.born) : (w.routers k).Kept (w'.routers k) := by
  rcases s.turn_of_born born with same | turn
  · exact same ▸ .refl _
  · exact turn.kept

theorem Goes.kept (g : Goes allow w w') (born : k < w.born) : (w.routers k).Kept (w'.routers k) := by
  induction g with
  | refl => exact .refl _
  | tail before s ih => exact ih.trans (s.kept (born.trans_le (Goes.born before)))

/-- A router that has a subscription was constructed. -/
theorem World.Sane.born_of_subscription (sane : w.Sane) {id : String} {sub : Subscription η}
    (found : (w.routers k).subscriptions.get? id = some sub) : k < w.born := by
  by_contra h
  simp [(sane.silent k (not_lt.1 h)).1] at found

/-- A router that has a binding was constructed. -/
theorem World.Sane.born_of_entry (sane : w.Sane) {name : String} {entry : RouterBinding η}
    (found : (w.routers k).entries.get? name = some entry) : k < w.born := by
  by_contra h
  simp [(sane.silent k (not_lt.1 h)).2] at found

theorem SessionRouter.Issued.kept {r r' : SessionRouter η} {id : String} (h : r.Issued id) (kept : r.Kept r') : r'.Issued id := by
  obtain ⟨n, bound, rfl⟩ := h
  exact ⟨n, bound.trans kept.nextId, by rw [kept.sessionId]⟩

/-- An open router was constructed. -/
theorem World.Sane.born (sane : w.Sane) (isOpen : (w.routers k).closed = false) : k < w.born := by
  by_contra h
  rw [sane.unborn k (not_lt.1 h)] at isOpen
  cases isOpen

end Steps

end RosBridge.Router
