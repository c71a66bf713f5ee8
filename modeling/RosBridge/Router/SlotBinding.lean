import RosBridge.Router.VideoSlots
/-!
# Slot binding

The slots of a peer are free or bound, each once, and a bound slot was negotiated for
the profile of its track (`Assigned`): a subscribe that binds a slot takes it out of the
free ones (`rebinds_bound`), and nothing else binds or frees one (`Move.rebound`). A
refused request binds nothing (`videoOperation_refused`).
-/

namespace RosBridge.Router

open Lib Prog Session Config Relation

variable {η : Type} {allow : Allow} {env : Env η} {k : Nat} {w w' : World η}

/-! ## Profiles -/

/-- Every bound slot carries what it was negotiated for. -/
def Fitted (media : MediaService) (v : Option VideoRouter) : Prop :=
  ∀ v', v = some v' → ∀ track b, v'.bound.get? track = some b → media.Fits track b.slot

theorem Reflagged.fitted {media : MediaService} {v v' : Option VideoRouter} (h : Reflagged v v') (fitted : Fitted media v) :
    Fitted media v' := by
  obtain ⟨f, slot, rfl⟩ := h
  intro v' video track b found
  obtain ⟨v₀, rfl, rfl⟩ := Option.map_eq_some_iff.1 video
  rw [Table.get?_mapValues] at found
  obtain ⟨b₀, before, rfl⟩ := Option.map_eq_some_iff.1 found
  rw [slot]
  exact fitted v₀ rfl track b₀ before

theorem Move.fitted {numbers : NumberText} {media : MediaService} {r r' : SessionRouter η}
    (m : Move numbers allow media r r') (h : Fitted media r.video) : Fitted media r'.video := by
  cases m with
  | control bytes _ control => exact control.video ▸ h
  | flagged track f slot known =>
    refine Reflagged.fitted ⟨fun t b => if t = track then f b else b, fun t b => ?_, rfl⟩ h
    dsimp only
    split
    · exact slot b
    · rfl
  | bound v track i slot video new free fits =>
    intro v' bound other b found
    obtain rfl := Option.some.inj bound
    rw [Table.get?_set] at found
    split at found
    · next same =>
      obtain rfl := Option.some.inj found
      rw [same]
      exact fits
    · exact h v video other b found
  | _ => exact h

theorem Turn.fitted {r : SessionRouter η} (t : Turn allow w k r) (h : Fitted w.media (w.routers k).video) :
    Fitted w.media r.video := by
  cases t with
  | move _ move => exact move.fitted h
  | subscribed entry requestId _ isOpen found free room announced => exact announced.video ▸ h
  | finished => exact Reflagged.fitted ⟨fun _ b => b.released, fun _ _ => rfl, rfl⟩ h
  | torn v f marks isOpen video torn less marked =>
    refine Reflagged.fitted ⟨f, fun t b => (less t b).slot, ?_⟩ h
    rw [video, Option.map_some]
  | _ => exact h

/-- The profiles of the tracks are configured once. -/
theorem Step.profileIdc (s : Step allow w w') : w'.media.profileIdc = w.media.profileIdc := by
  cases s with
  | _ => rfl

theorem Goes.profileIdc (g : Goes allow w w') : w'.media.profileIdc = w.media.profileIdc := by
  induction g with
  | refl => rfl
  | tail _ s ih => exact s.profileIdc.trans ih

theorem Goes.fitted (g : Goes allow w w') (born : k < w.born) (h : Fitted w.media (w.routers k).video) :
    Fitted w'.media (w'.routers k).video := by
  induction g with
  | refl => exact h
  | tail before s ih =>
    rename_i w₁ w₂
    have fitted : Fitted w₁.media (w₂.routers k).video := by
      rcases s.turn_of_born (born.trans_le (Goes.born before)) with same | turn
      · exact same ▸ ih
      · exact turn.fitted ih
    intro v video track b found
    rw [MediaService.Fits, s.profileIdc]
    exact fitted v video track b found

/-! ## Refusals -/

/-- The texts with which a slot is refused. -/
def refusals : List String := ["unauthorized", "video_slot_limit", "video_profile_mismatch"]

/-- The router is as it was; or the hook that was asked has closed it, with which
tracks and slots stay as they were. -/
def Untouched (k : Nat) (w w' : World η) : Prop :=
  w'.routers k = w.routers k ∨
    (w'.routers k).closed = true ∧ Reflagged (w.routers k).video (w'.routers k).video

theorem Hooked.untouched (h : Hooked allow w w') (k : Nat) : Untouched k w w' :=
  (h.routers k).imp id fun shut => ⟨shut.closed, shut.video⟩

theorem Untouched.reflagged (h : Untouched k w w') : Reflagged (w.routers k).video (w'.routers k).video := by
  rcases h with same | ⟨-, reflagged⟩
  · rw [same]
    exact .refl _
  · exact reflagged

/-- A free slot of router `k` could carry the track. -/
def Available (k : Nat) (track : String) (w : World η) : Prop :=
  ∃ v slot, (w.routers k).video = some v ∧ slot ∈ v.free ∧ w.media.Fits track slot

theorem Available.untouched {track : String} (h : Available k track w) (untouched : Untouched k w w')
    (profiles : w'.media.profileIdc = w.media.profileIdc) : Available k track w' := by
  obtain ⟨v, slot, video, free, fits⟩ := h
  obtain ⟨f, -, video'⟩ := untouched.reflagged
  rw [video, Option.map_some] at video'
  refine ⟨_, slot, video', free, ?_⟩
  rw [MediaService.Fits, profiles]
  exact fits

/-- A track that a free slot could carry gets one. -/
theorem bind_refused (k : Nat) (track : String) (w : World η) :
    wp (bind k track) (fun _ _ => True)
      (fun e w' => w' = w ∧ (e = "video_slot_limit" ∨ e = "video_profile_mismatch" → ¬Available k track w)) w := by
  rw [bind, wp_bind]
  unfold wp
  rw [videoOf_exec]
  cases video : (w.routers k).video with
  | none =>
    refine ⟨rfl, fun _ => ?_⟩
    rintro ⟨v, slot, here, -⟩
    cases video.symm.trans here
  | some v =>
    show wp _ _ _ w
    cases v.bound.get? track with
    | some existing => trivial
    | none =>
      have own : Available k track w → ∃ slot ∈ v.free, w.media.Fits track slot := by
        rintro ⟨v', slot, here, free, fits⟩
        obtain rfl := Option.some.inj (video.symm.trans here)
        exact ⟨slot, free, fits⟩
      simp only [wp_bind, wp_throwIf, wp_get]
      refine ⟨fun empty => ⟨trivial, fun _ available => ?_⟩, fun _ => ?_⟩
      · obtain ⟨slot, free, -⟩ := own available
        rw [List.isEmpty_iff.1 empty] at free
        cases free
      · split
        · next missed =>
          refine ⟨rfl, fun _ available => ?_⟩
          obtain ⟨slot, free, idc, wanted, carries⟩ := own available
          have other := List.find?_eq_none.1 missed slot free
          rw [wanted, carries] at other
          exact other (by simp)
        · trivial

/-- An attachment is refused for other reasons. -/
theorem attach_error (track : String) (viewer : ViewerId) (w : World η) :
    wp (attach env track viewer) (fun _ _ => True) (fun e _ => e ∉ refusals) w := by
  simp only [attach, source, onSource, wp_bind, wp_get, wp_throwIf, wp_pure, wp_modify]
  refine ⟨fun _ => ?_, fun _ => ⟨fun _ => ?_, fun _ => ⟨fun _ => ?_, fun _ => trivial⟩⟩⟩ <;> decide

theorem release_error (track : String) (w : World η) :
    wp (release env k track) (fun _ _ => True) (fun e _ => e ∉ refusals) w := by
  rw [release, wp_bind, wp_bindingOf]
  split
  · trivial
  · simp only [detach, wp_bind, wp_setBinding, wp_when, wp_mark, wp_ask, wp_throwIf, wp_get, wp_modify]
    refine ⟨fun _ => ⟨fun _ => ?_, fun _ => ⟨fun _ => ?_, fun _ => trivial⟩⟩, fun _ => trivial⟩ <;> decide

/-- What a request that is refused has done. -/
structure NotBound (env : Env η) (k : Nat) (wire : Wire) (w : World η) (e : String) (w' : World η) : Prop where
  untouched : e ∈ refusals → Untouched k w w'
  scarce : e = "video_slot_limit" ∨ e = "video_profile_mismatch" →
    (hook env env.videoAuthorize).exec w = (.error e, w') ∨
      ∀ track, textField wire "track" = .ok track → ¬Available k track w

theorem NotBound.of_other {wire : Wire} {e : String} (other : e ∉ refusals) : NotBound env k wire w e w' := by
  refine ⟨fun mem => absurd mem other, fun scarce => absurd ?_ other⟩
  rcases scarce with rfl | rfl <;> decide

theorem fields_error {wire : Wire} {allowed : List String} {e : String} (h : fields wire allowed = .error e) : e ∉ refusals := by
  unfold fields at h
  split at h
  · cases h
    decide
  · cases h

theorem textField_error {wire : Wire} {key e : String} (h : textField wire key = .error e) : e ∉ refusals := by
  unfold textField at h
  split at h
  · split at h <;> cases h
    decide
  · cases h
    decide

theorem videoSubscribe_refused (k : Nat) (wire : Wire) (id : String) (sane : w.Sane) :
    wp (videoSubscribe env k wire id) (fun _ _ => True) (NotBound env k wire w) w := by
  simp only [videoSubscribe, wp_bind, wp_ofExcept, wp_throwIf]
  refine ⟨fun _ _ => ⟨fun track text => ?_, fun e h => .of_other (textField_error h)⟩, fun e h => .of_other (fields_error h)⟩
  have asked := hook_asked (permits_any env) env.videoAuthorize (permits_any env).videoAuthorize w sane
  have thrown : wp (hook env env.videoAuthorize) (fun _ _ => True)
      (fun e w' => (hook env env.videoAuthorize).exec w = (.error e, w')) w := by
    unfold wp
    split
    · trivial
    · assumption
  refine wp_mono (wp_and asked thrown) ?_ ?_
  · rintro ok w₁ ⟨asked, -⟩
    have untouched := asked.toHooked.untouched k
    refine ⟨fun _ => ⟨fun _ => untouched, fun scarce => absurd scarce (by decide)⟩, fun _ => ?_⟩
    refine wp_mono (bind_refused k track w₁) ?_ ?_
    · rintro entry w₂ -
      rw [wp_when]
      refine ⟨fun _ => ?_, fun _ => trivial⟩
      rw [wp_bind]
      exact wp_mono (attach_error track (k, track) w₂) (fun _ _ _ => trivial) fun _ _ other => .of_other other
    · rintro e _ ⟨rfl, refused⟩
      refine ⟨fun _ => untouched, fun scarce => .inr fun track' text' available => ?_⟩
      obtain rfl := Except.ok.inj (text.symm.trans text')
      exact refused scarce (available.untouched untouched asked.toHooked.trip.goes.profileIdc)
  · rintro e w' ⟨asked, thrown⟩
    exact ⟨fun _ => asked.toHooked.untouched k, fun _ => .inl thrown⟩

theorem videoUnsubscribe_refused (k : Nat) (wire : Wire) (id : String) :
    wp (videoUnsubscribe env k wire id) (fun _ _ => True) (fun e _ => e ∉ refusals) w := by
  simp only [videoUnsubscribe, wp_bind, wp_ofExcept]
  refine ⟨fun _ _ => ⟨fun mid _ => ?_, fun e h => textField_error h⟩, fun e h => fields_error h⟩
  have read : wp (videoOf k) (fun _ w' => w' = w) (fun e _ => e ∉ refusals) w := by
    unfold wp
    rw [videoOf_exec]
    cases (w.routers k).video with
    | none => exact (by decide : "unknown_operation" ∉ refusals)
    | some v => rfl
  refine wp_mono read ?_ fun _ _ other => other
  rintro v _ rfl
  split
  · exact (by decide : "unknown_video_slot" ∉ refusals)
  · next track _ _ =>
    rw [wp_bind]
    exact wp_mono (release_error track _) (fun _ _ _ => trivial) fun _ _ other => other

theorem videoOperation_refused (k : Nat) (wire : Wire) (id : String) (sane : w.Sane) :
    wp (videoOperation env k wire id) (fun _ _ => True) (NotBound env k wire w) w := by
  rw [videoOperation, wp_ite, wp_ite]
  refine ⟨fun _ => videoSubscribe_refused k wire id sane, fun _ => ⟨fun _ => ?_, fun _ => ?_⟩⟩
  · exact wp_mono (videoUnsubscribe_refused k wire id) (fun _ _ _ => trivial) fun _ _ other => .of_other other
  · exact NotBound.of_other (by decide)

/-! ## The slots of a peer -/

/-- Every negotiated slot is free or bound to one track, and each once; a bound slot was
negotiated for the profile of its track. -/
structure Assigned (media : MediaService) (slots : List VideoSlot) (v : VideoRouter) : Prop where
  partition : (v.bound.values.map (·.slot) ++ v.free).Perm slots
  fits : ∀ track b, v.bound.get? track = some b → media.Fits track b.slot

/-- No slot is bound to two tracks, and none is bound and free. -/
structure Apart (v : VideoRouter) : Prop where
  bound : ∀ track b track' b', v.bound.get? track = some b → v.bound.get? track' = some b' → b.slot = b'.slot → track = track'
  free : ∀ track b, v.bound.get? track = some b → b.slot ∉ v.free

theorem Assigned.apart {media : MediaService} {slots : List VideoSlot} {v : VideoRouter} (h : Assigned media slots v)
    (distinct : slots.Nodup) : Apart v := by
  have nodup : (v.bound.values.map (·.slot) ++ v.free).Nodup := h.partition.nodup_iff.2 distinct
  obtain ⟨bound, -, apart⟩ := List.nodup_append.1 nodup
  rw [Table.values, List.map_map] at bound apart
  constructor
  · intro track b track' b' found found' same
    have mem : (track, b) ∈ v.bound.entries := Table.mem_entries_iff.2 found
    have mem' : (track', b') ∈ v.bound.entries := Table.mem_entries_iff.2 found'
    exact congrArg Prod.fst (List.inj_on_of_nodup_map bound mem mem' same)
  · intro track b found free
    have mem : (track, b) ∈ v.bound.entries := Table.mem_entries_iff.2 found
    exact apart _ (List.mem_map.2 ⟨(track, b), mem, rfl⟩) _ free rfl

/-- In every state that a router reaches once it is constructed with these slots,
whatever its peer, the hooks, the media plane and the other peers do: its slots are
assigned, no later state changes a binding, a request refused for lack of access, of a
free slot or of a matching profile binds and frees none, and a track that a free slot
could carry is not refused for lack of one. -/
theorem slots_assigned (numbers : NumberText) (guard : CommandGuard) (media : MediaService) (unused : guard.handles = .empty)
    (earlier : List (Env η × Input η)) (env₀ : Env η) (options : RouterOptions η) {slots : List VideoSlot}
    (own : options.slots = some slots) {w₁ w₂ : World η}
    (made : (construct env₀ options).exec ((World.start numbers guard media).run earlier) = (.ok (), w₁))
    {k : Nat} (newest : w₁.born = k + 1) (goes : Goes .any w₁ w₂) :
    ∃ v, (w₂.routers k).video = some v ∧ Assigned w₂.media slots v ∧ (slots.Nodup → Apart v) ∧
      (∀ w₃, Goes .any w₂ w₃ → Rebound (some v) (w₃.routers k).video) ∧
      ∀ (env : Env η) (wire : Wire) (id e : String) (w₃ : World η), (videoOperation env k wire id).exec w₂ = (.error e, w₃) →
        (e ∈ refusals → Untouched k w₂ w₃) ∧
        ∀ track, textField wire "track" = .ok track → Available k track w₂ →
          (∃ ok w', (hook env env.videoAuthorize).exec w₂ = (.ok ok, w')) → e ≠ "video_slot_limit" ∧ e ≠ "video_profile_mismatch" := by
  have started : (World.start numbers guard media : World η).Sane := start_sane numbers media unused
  have sane₀ := (run_goes_any started earlier).sane started
  obtain ⟨born, r, sessionId, t, router, here⟩ := of_wp_ok (construct_spec options _) made
  have roams : Roams .any (construct env₀ options) := construct_walks trivial options
  have sane₁ := (of_wp_ok (roams _ sane₀) made).1.sane sane₀
  have number : ((World.start numbers guard media).run earlier).born = k := by omega
  rw [number] at here
  have video : (w₁.routers k).video = some ⟨.empty, slots⟩ := by
    rw [here, (router_spec router).2.1, own, Option.map_some]
  have born₁ : k < w₁.born := by omega
  have fitted : Fitted w₂.media (w₂.routers k).video := by
    refine goes.fitted born₁ fun v here track b found => ?_
    obtain rfl := Option.some.inj (video.symm.trans here)
    cases found
  have rebound := Goes.rebound goes born₁
  have rebinds : ∀ w₃, Goes .any w₂ w₃ → Rebound (w₂.routers k).video (w₃.routers k).video :=
    fun w₃ later => Goes.rebound later (born₁.trans_le (Goes.born goes))
  rw [video] at rebound
  generalize later : (w₂.routers k).video = here at rebound
  cases rebound with
  | some kept =>
    rename_i v
    have assigned : Assigned w₂.media slots v := ⟨kept.slots, fun track b found => fitted v later track b found⟩
    refine ⟨v, rfl, assigned, assigned.apart, fun w₃ goes₃ => later ▸ rebinds w₃ goes₃, ?_⟩
    intro env wire id e w₃ threw
    have refused := of_wp_error (videoOperation_refused k wire id (goes.sane sane₁)) threw
    refine ⟨refused.untouched, fun track text available answered => ?_⟩
    obtain ⟨ok, w', answer⟩ := answered
    rw [← not_or]
    intro scarce
    rcases refused.scarce scarce with thrown | never
    · cases answer.symm.trans thrown
    · exact never track text available

/-- The options of the peer of `videoVisit`. -/
def watching : RouterOptions Json :=
  { smallOptions [plainTopic "/odom" .rosToWeb none] with slots := some [⟨"0", "42e01f"⟩] }

/-- Its only slot is bound to the track it watches. -/
theorem slots_assigned_video :
    ∃ v, (videoBridge.routers 0).video = some v ∧ Assigned videoBridge.media [⟨"0", "42e01f"⟩] v ∧ v.bound.has "front" := by
  have made : (construct (Env.calm 0) watching).exec (World.start plainNumbers smallGuard oneTrack) =
      (.ok (), (construct (Env.calm 0) watching).after (World.start plainNumbers smallGuard oneTrack)) :=
    exec_of_fst (by decide +kernel)
  have sane : ((construct (Env.calm 0) watching).after (World.start plainNumbers smallGuard oneTrack)).Sane := by
    have walks : Roams .any (construct (Env.calm 0) watching) := construct_walks trivial watching
    have start : (World.start plainNumbers smallGuard oneTrack : World Json).Sane := start_sane plainNumbers oneTrack rfl
    exact (of_wp_ok (walks _ start) made).1.sane start
  have goes : Goes .any _ videoBridge := run_goes_any sane (videoVisit.drop 1)
  obtain ⟨v, video, assigned, -⟩ :=
    slots_assigned plainNumbers smallGuard oneTrack rfl [] (.calm 0) watching rfl made (k := 0) (by decide +kernel) goes
  have bound : ((videoBridge.routers 0).video.map fun v => v.bound.has "front") = some true := by decide +kernel
  rw [video, Option.map_some] at bound
  exact ⟨v, video, assigned, Option.some.inj bound⟩

end RosBridge.Router
