import RosBridge.Router.Inputs
/-!
# Slots and the names they go by

A router's slots are bound one after the other and stay with their tracks, whatever
happens to the bridge (`Goes.rebound`). So, when the mids of the slots are identifiers
and distinct, an unsubscribe by the mid that a subscribe returned releases the track of
that subscribe and no other (`nameable`). A mid that is no identifier names nothing
(`unsubscribe_unnamed`), and one that two tracks share names one of them at most.
-/

namespace RosBridge.Router

open Lib Prog Session Config Relation

variable {η : Type} {allow : Allow} {env : Env η} {k : Nat} {w w' : World η}

/-! ## Slots stay with their tracks -/

/-- The slots of a peer, bound and free. -/
def VideoRouter.slots (v : VideoRouter) : List VideoSlot := v.bound.values.map (·.slot) ++ v.free

/-- The same slots, and the bound ones bound to the same tracks. -/
structure Rebinds (v v' : VideoRouter) : Prop where
  slots : v'.slots.Perm v.slots
  bound : ∀ track b, v.bound.get? track = some b → ∃ b', v'.bound.get? track = some b' ∧ b'.slot = b.slot

/-- What becomes of the media plane of a router. -/
inductive Rebound : Option VideoRouter → Option VideoRouter → Prop where
  | none : Rebound none none
  | some {v v' : VideoRouter} (rebinds : Rebinds v v') : Rebound (some v) (some v')

namespace Rebound

theorem refl : ∀ v : Option VideoRouter, Rebound v v
  | .none => .none
  | .some _ => .some ⟨.refl _, fun _ b h => ⟨b, h, rfl⟩⟩

theorem trans {u v v' : Option VideoRouter} (h : Rebound u v) (h' : Rebound v v') : Rebound u v' := by
  cases h with
  | none => exact h'
  | some first =>
    cases h' with
    | some second =>
      apply Rebound.some
      constructor
      · exact second.slots.trans first.slots
      · intro track b found
        obtain ⟨b₁, found₁, same₁⟩ := first.bound track b found
        obtain ⟨b₂, found₂, same₂⟩ := second.bound track b₁ found₁
        exact ⟨b₂, found₂, same₂.trans same₁⟩

end Rebound

/-- Changing what is not the slot of a binding. -/
theorem rebinds_mapValues (v : VideoRouter) {f : String → Binding → Binding} (slot : ∀ t b, (f t b).slot = b.slot) :
    Rebinds v { v with bound := v.bound.mapValues f } where
  slots := by
    have same : (v.bound.mapValues f).values.map (·.slot) = v.bound.values.map (·.slot) := by
      simp only [Table.values, Table.mapValues, List.map_map]
      apply List.map_congr_left
      intro e _
      exact slot e.1 e.2
    rw [VideoRouter.slots, VideoRouter.slots, same]
  bound track b found := ⟨f track b, by rw [Table.get?_mapValues, found, Option.map_some], slot track b⟩

/-- Binding a free slot to a new track. -/
theorem rebinds_bound {v : VideoRouter} {track : String} {i : Nat} {slot : VideoSlot} (new : v.bound.get? track = none)
    (free : v.free[i]? = some slot) : Rebinds v ⟨v.bound.set track ⟨slot, false, false⟩, v.free.eraseIdx i⟩ where
  slots := by
    obtain ⟨lt, rfl⟩ := List.getElem?_eq_some_iff.1 free
    have taken : (v.free[i] :: v.free.eraseIdx i).Perm v.free := List.getElem_cons_eraseIdx_perm lt
    have stored : (v.bound.set track ⟨v.free[i], false, false⟩).values.map (·.slot) =
        v.bound.values.map (·.slot) ++ [v.free[i]] := by
      rw [Table.values, Table.entries_set_of_get?_none _ new, List.map_append, List.map_append]
      rfl
    rw [VideoRouter.slots, VideoRouter.slots, stored, List.append_assoc]
    exact taken.append_left _
  bound other b found := by
    have apart : other ≠ track := by
      rintro rfl
      rw [new] at found
      cases found
    exact ⟨b, by rw [Table.get?_set_ne _ _ apart, found], rfl⟩

theorem Control.video {bytes : Bytes} {r r' : SessionRouter η} (c : Control r bytes r') : r'.video = r.video := by
  cases c <;> rfl

theorem Move.rebound {numbers : NumberText} {media : MediaService} {r r' : SessionRouter η}
    (m : Move numbers allow media r r') : Rebound r.video r'.video := by
  cases m with
  | control bytes _ control => exact control.video ▸ .refl _
  | flagged track f slot known =>
    cases video : r.video with
    | none =>
      rw [SessionRouter.flag, video]
      exact .none
    | some v =>
      rw [SessionRouter.flag, video]
      apply Rebound.some
      refine rebinds_mapValues v (f := fun t b => if t = track then f b else b) ?_
      intro t b
      split
      · exact slot b
      · rfl
  | bound v track i slot video new free fits =>
    rw [video]
    exact .some (rebinds_bound new free)
  | _ => exact .refl _

theorem Announced.video {numbers : NumberText} {envelope : Envelope} {r r' : SessionRouter η}
    (a : Announced numbers allow r envelope r') : r'.video = r.video := by
  cases a with
  | announced id input t _ cached storable now control => exact control.video
  | large => rfl

/-- A turn leaves the slots with their tracks, also one that closes the router. -/
theorem Turn.rebound {r : SessionRouter η} (t : Turn allow w k r) : Rebound (w.routers k).video r.video := by
  cases t with
  | move _ move => exact move.rebound
  | subscribed entry requestId _ isOpen found free room announced => exact announced.video ▸ .refl _
  | finished =>
    cases video : (w.routers k).video with
    | none =>
      rw [SessionRouter.finished, video]
      exact .none
    | some v =>
      rw [SessionRouter.finished, video]
      exact .some (rebinds_mapValues v fun _ _ => rfl)
  | torn v f marks _ video _ less =>
    rw [video]
    exact .some (rebinds_mapValues v fun t b => (less t b).slot)
  | _ => exact .refl _

/-- The slots of a router stay with their tracks. -/
theorem Goes.rebound (g : Goes allow w w') (born : k < w.born) : Rebound (w.routers k).video (w'.routers k).video := by
  induction g with
  | refl => exact .refl _
  | tail before s ih =>
    rename_i w₁ w₂
    have here := born.trans_le (Goes.born before)
    apply ih.trans
    rcases s.turn_of_born here with same | turn
    · exact same ▸ .refl _
    · exact turn.rebound

/-! ## Subscribing -/

theorem videoOf_exec (k : Nat) (w : World η) : (videoOf k).exec w =
    match (w.routers k).video with
    | none => (.error "unknown_operation", w)
    | some v => (.ok v, w) := by
  have here : (router k).exec w = (.ok (w.routers k), w) := rfl
  rw [videoOf, exec_bind_ok here]
  cases (w.routers k).video <;> rfl

/-- A track has this slot. -/
def World.Has (w : World η) (k : Nat) (track : String) (slot : VideoSlot) : Prop :=
  ∃ v b, (w.routers k).video = some v ∧ v.bound.get? track = some b ∧ b.slot = slot

theorem World.Has.rebound {track : String} {slot : VideoSlot} (h : w.Has k track slot)
    (rebound : Rebound (w.routers k).video (w'.routers k).video) : w'.Has k track slot := by
  obtain ⟨v, b, video, found, rfl⟩ := h
  rw [video] at rebound
  generalize video' : (w'.routers k).video = later at rebound
  cases rebound with
  | some rebinds =>
    obtain ⟨b', found', same⟩ := rebinds.bound track b found
    exact ⟨_, b', video', found', same⟩

/-- It is one of the slots of the peer. -/
theorem World.Has.mem {track : String} {slot : VideoSlot} {slots : List VideoSlot} {v : VideoRouter} (h : w.Has k track slot)
    (video : (w.routers k).video = some v) (same : v.slots.Perm slots) : slot ∈ slots := by
  obtain ⟨v', b, video', found, rfl⟩ := h
  obtain rfl := Option.some.inj (video.symm.trans video')
  have mem : (track, b) ∈ v.bound.entries := Table.mem_entries_iff.2 found
  apply same.subset
  apply List.mem_append_left
  exact List.mem_map.2 ⟨b, List.mem_map.2 ⟨(track, b), mem, rfl⟩, rfl⟩

/-- A track that `bind` returns a binding for has its slot. -/
theorem bind_has (k : Nat) (track : String) (w : World η) :
    wp (bind k track) (fun entry w' => w'.Has k track entry.slot) (fun _ _ => True) w := by
  have read : wp (videoOf k) (fun v w' => w' = w ∧ (w.routers k).video = some v) (fun _ _ => True) w := by
    unfold wp
    rw [videoOf_exec]
    cases video : (w.routers k).video with
    | none => trivial
    | some v => exact ⟨rfl, rfl⟩
  rw [bind, wp_bind]
  refine wp_mono read ?_ fun _ _ _ => trivial
  rintro v _ ⟨rfl, video⟩
  cases found : v.bound.get? track with
  | some existing => exact ⟨v, existing, video, found, rfl⟩
  | none =>
    simp only [wp_bind, wp_throwIf, wp_get]
    refine ⟨fun _ => trivial, fun _ => ?_⟩
    split
    · trivial
    · next slot _ =>
      simp only [wp_bind, wp_update, wp_pure]
      rw [World.Has, World.setRouter_self]
      exact ⟨_, _, rfl, Table.get?_set_self _ _ _, rfl⟩

/-- The mid that a subscribe returns is that of the slot its track has. -/
theorem videoSubscribe_has (permits : Permits allow env) (wire : Wire) (id : String) (sane : w.Sane) (born : k < w.born) :
    wp (videoSubscribe env k wire id)
      (fun envelope w' => ∃ track slot, envelope = .videoSubscribed id track slot.mid ∧ w'.Has k track slot)
      (fun _ _ => True) w := by
  simp only [videoSubscribe, wp_bind, wp_ofExcept, wp_throwIf]
  refine ⟨fun _ _ => ⟨fun track _ => ?_, fun _ _ => trivial⟩, fun _ _ => trivial⟩
  refine wp_mono (hook_asked permits env.videoAuthorize permits.videoAuthorize w sane) (fun _ w₁ asked => ?_) fun _ _ _ => trivial
  refine ⟨fun _ => trivial, fun _ => ?_⟩
  have sane₁ := asked.toHooked.trip.sane sane
  have born₁ := born.trans_le (Goes.born asked.toHooked.trip.goes)
  have walks : Walks allow none (bind k track) w₁ fun _ _ => True := bind_walks k track w₁
  refine wp_mono (wp_and (bind_has k track w₁) walks) ?_ fun _ _ _ => trivial
  rintro entry w₂ ⟨has, trip₂, -⟩
  rw [wp_when]
  constructor
  · intro _
    have sane₂ := trip₂.sane sane₁
    have born₂ := born₁.trans_le (Goes.born trip₂.goes)
    rw [wp_bind]
    refine wp_mono (attach_walks permits track (k, track) w₂ sane₂) ?_ fun _ _ _ => trivial
    rintro _ w₃ ⟨trip₃, -⟩
    rw [wp_setBinding]
    have flagged : Move w₃.numbers allow { w₃.media with tracks := track :: w₃.media.tracks } (w₃.routers k)
        ((w₃.routers k).flag track fun b => { b with watching := true, attached := true }) :=
      .flagged track _ (by intro _; rfl) fun _ _ => .inr List.mem_cons_self
    refine ⟨track, entry.slot, rfl, (has.rebound (trip₃.goes.rebound born₂)).rebound ?_⟩
    rw [World.setRouter_self]
    exact flagged.rebound
  · exact fun _ => ⟨track, entry.slot, rfl, has⟩

/-! ## Unsubscribing -/

/-- An envelope that unsubscribes the slot of a mid. -/
structure Unsubscribes (wire : Wire) (mid : String) : Prop where
  operation : operationOf wire = "video.unsubscribe"
  fields : fields wire ["id", "mid"] = .ok ()
  mid : wire.field "mid" = some (.string mid)

/-- The request releases the binding of that track and no other. -/
structure Selects (env : Env η) (k : Nat) (wire : Wire) (id track : String) (w : World η) : Prop where
  released : (videoOperation env k wire id).exec w = (do release env k track; return .videoUnsubscribed id : Code η Envelope).exec w
  detached : track ∉ (((videoOperation env k wire id).after w).routers k).attached
  others : ∀ other, other ≠ track →
    (other ∈ (((videoOperation env k wire id).after w).routers k).attached ↔ other ∈ (w.routers k).attached)

theorem attached_release_self (r : SessionRouter η) (track : String) : track ∉ (r.release track).attached := by
  rw [mem_attached]
  rintro ⟨v', b, hv', hb, ha⟩
  obtain ⟨v, hv, rfl⟩ := Option.map_eq_some_iff.1 hv'
  rw [Table.get?_modify, if_pos rfl] at hb
  obtain ⟨b₀, -, rfl⟩ := Option.map_eq_some_iff.1 hb
  cases ha

theorem Selects.of_released {wire : Wire} {id track : String}
    (released : (videoOperation env k wire id).exec w = (do release env k track; return .videoUnsubscribed id : Code η Envelope).exec w) :
    Selects env k wire id track w := by
  have left : ((videoOperation env k wire id).after w).routers k = (w.routers k).release track := by
    have same : (videoOperation env k wire id).after w =
        (do release env k track; return .videoUnsubscribed id : Code η Envelope).after w := congrArg Prod.snd released
    rw [same]
    apply after_of_wp (P := fun w' : World η => w'.routers k = (w.routers k).release track)
    rw [wp_bind]
    refine wp_mono (release_spec env k track w) ?_ ?_
    · rintro _ _ ⟨-, sources, rfl⟩
      exact World.setRouter_self _ _ _
    · rintro _ _ ⟨-, rfl⟩
      exact World.setRouter_self _ _ _
  constructor
  · exact released
  · rw [left]
    exact attached_release_self _ _
  · intro other apart
    rw [left]
    exact attached_release _ apart

/-- Bound slots with distinct mids are told apart by them. -/
theorem find?_mid {v : VideoRouter} (distinct : (v.slots.map (·.mid)).Nodup) {track : String} {b : Binding}
    (found : v.bound.get? track = some b) : (v.bound.entries.find? fun e => e.2.slot.mid = b.slot.mid) = some (track, b) := by
  have mem : (track, b) ∈ v.bound.entries := Table.mem_entries_iff.2 found
  have mids : (v.bound.entries.map fun e => e.2.slot.mid).Nodup := by
    rw [VideoRouter.slots, List.map_append, Table.values, List.map_map, List.map_map] at distinct
    exact (List.nodup_append.1 distinct).1
  cases first : v.bound.entries.find? fun e => e.2.slot.mid = b.slot.mid with
  | none => simpa using List.find?_eq_none.1 first _ mem
  | some e =>
    have same : e.2.slot.mid = b.slot.mid := by simpa using List.find?_some first
    rw [List.inj_on_of_nodup_map mids (List.mem_of_find?_eq_some first) mem same]

theorem unsubscribe_selects {track : String} {slot : VideoSlot} {slots : List VideoSlot} {v : VideoRouter}
    (video : (w.routers k).video = some v) (same : v.slots.Perm slots) (distinct : (slots.map (·.mid)).Nodup)
    (has : w.Has k track slot) (named : identifier slot.mid = true) {wire : Wire} (wanted : Unsubscribes wire slot.mid)
    (id : String) : Selects env k wire id track w := by
  apply Selects.of_released
  obtain ⟨v', b, video', found, rfl⟩ := has
  obtain rfl := Option.some.inj (video.symm.trans video')
  have read : (videoOf k).exec w = (.ok v, w) := by rw [videoOf_exec, video]
  have text : textField wire "mid" = .ok b.slot.mid := by
    rw [textField, wanted.mid]
    exact if_pos named
  have distinct : (v.slots.map (·.mid)).Nodup := (same.map _).nodup_iff.2 distinct
  have other : operationOf wire ≠ "video.subscribe" := by
    rw [wanted.operation]
    decide
  rw [videoOperation, if_neg other, if_pos wanted.operation, videoUnsubscribe, wanted.fields, text]
  have passed : (Prog.ofExcept (.ok ()) : Code η Unit).exec w = (.ok (), w) := rfl
  have given : (Prog.ofExcept (.ok b.slot.mid) : Code η String).exec w = (.ok b.slot.mid, w) := rfl
  rw [exec_bind_ok passed, exec_bind_ok given, exec_bind_ok read, find?_mid distinct found]

/-- A mid that is no identifier is refused. -/
theorem unsubscribe_unnamed {mid : String} (unnamed : identifier mid = false) {wire : Wire} (wanted : Unsubscribes wire mid)
    (id : String) : (videoOperation env k wire id).exec w = (.error "invalid_identifier", w) := by
  have text : textField wire "mid" = .error "invalid_identifier" := by
    rw [textField, wanted.mid]
    exact if_neg (by rw [unnamed]; decide)
  have other : operationOf wire ≠ "video.subscribe" := by
    rw [wanted.operation]
    decide
  rw [videoOperation, if_neg other, if_pos wanted.operation, videoUnsubscribe, wanted.fields, text]
  have passed : (Prog.ofExcept (.ok ()) : Code η Unit).exec w = (.ok (), w) := rfl
  rw [exec_bind_ok passed]
  rfl

/-! ## Any sequence of requests -/

/-- Whatever happens to the bridge: once a subscribe of a peer with these slots has
returned a mid for a track, an unsubscribe by that mid selects the track, as long as the
peer is connected. -/
def Nameable (η : Type) (slots : List VideoSlot) : Prop :=
  ∀ (numbers : NumberText) (guard : CommandGuard) (media : MediaService), guard.handles = .empty →
    ∀ (earlier : List (Env η × Input η)) (env : Env η) (options : RouterOptions η) (w₁ : World η),
      options.slots = some slots →
      (construct env options).exec ((World.start numbers guard media).run earlier) = (.ok (), w₁) →
      ∀ (k : Nat) (w₂ : World η), w₁.born = k + 1 → Goes .any w₁ w₂ →
        ∀ (env : Env η) (wire : Wire) (id track mid : String) (w₃ : World η), operationOf wire = "video.subscribe" →
          (videoOperation env k wire id).exec w₂ = (.ok (.videoSubscribed id track mid), w₃) →
          ∀ (w₄ : World η), Goes .any w₃ w₄ → (w₄.routers k).closed = false →
            ∀ (env : Env η) (wire : Wire) (id : String), Unsubscribes wire mid → Selects env k wire id track w₄

theorem nameable {slots : List VideoSlot} (named : ∀ slot ∈ slots, identifier slot.mid = true)
    (distinct : (slots.map (·.mid)).Nodup) : Nameable η slots := by
  intro numbers guard media unused earlier env₀ options w₁ own made k w₂ newest goes₂ env₁ wire₁ id₁ track mid w₃ asked subscribed
    w₄ goes₄ isOpen env₂ wire₂ id₂ wanted
  have started : (World.start numbers guard media : World η).Sane := start_sane numbers media unused
  have sane₀ := (run_goes_any started earlier).sane started
  obtain ⟨born, r, sessionId, t, router, here⟩ := of_wp_ok (construct_spec options _) made
  have roams : Roams .any (construct env₀ options) := construct_walks trivial options
  have sane₁ := (of_wp_ok (roams _ sane₀) made).1.sane sane₀
  have number : ((World.start numbers guard media).run earlier).born = k := by omega
  rw [number] at here
  have video : (w₁.routers k).video = some ⟨.empty, slots⟩ := by
    rw [here, (router_spec router).2.1, own, Option.map_some]
  have born₁ : k < w₁.born := by omega
  have sane₂ := goes₂.sane sane₁
  have born₂ := born₁.trans_le (Goes.born goes₂)
  rw [videoOperation, if_pos asked] at subscribed
  have goes₃ := (of_wp_ok (videoSubscribe_walks (permits_any env₁) k wire₁ id₁ w₂ sane₂) subscribed).1.goes
  have born₃ := born₂.trans_le (Goes.born goes₃)
  obtain ⟨track', slot, e, has⟩ :=
    of_wp_ok (videoSubscribe_has (permits_any env₁) wire₁ id₁ sane₂ born₂) subscribed
  cases e
  have rebound := Goes.rebound (goes₂.trans (goes₃.trans goes₄)) born₁
  rw [video] at rebound
  generalize later : (w₄.routers k).video = v at rebound
  cases rebound with
  | some rebinds =>
    have has := has.rebound (Goes.rebound goes₄ born₃)
    exact unsubscribe_selects later rebinds.slots distinct has (named slot (has.mem later rebinds.slots)) wanted id₂

end RosBridge.Router
