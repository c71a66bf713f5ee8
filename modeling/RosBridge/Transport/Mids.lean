import RosBridge.Router.VideoSlots
import RosBridge.Transport.Readers
/-!
# Offers whose slots can be named

The mid of a slot is what the negotiator reads in its section, and empty when it reads
nothing (`videoSlot` of `app/cli.ts`). The parser only looks for `a=mid:` with nothing
behind it; whether the peer can name its slots depends on the last mid line of every
section (`slots_named_iff`).
-/

namespace RosBridge.Transport

open Lib Session JsString Router

/-! ## The mid of a section -/

/-- The mid the negotiator gives a section. -/
def MediaSection.mid (s : MediaSection) : JsString := ((s.attributes.filterMap midOf).getLast?.join).getD []

theorem mid_read {s : MediaSection} {media : MediaDescription} (h : s.read = some media) : s.mid = media.muxId.getD [] := by
  rw [MediaSection.mid, (read_spec h true).2.1]

/-- A mid attribute, with a value or without. -/
def isMid (line : JsString) : Bool := js "a=mid:" <+: line ∨ line = js "a=mid"

/-- The mid line of a section: the last one counts. -/
def MediaSection.midLine (s : MediaSection) : Option JsString := (s.attributes.filter isMid).getLast?

theorem midOf_line (name : JsString) : midOf (js "a=mid:" ++ name) = some (some name) := by
  have line : js "a=mid:" ++ name = js "a=" ++ (js "mid" ++ 0x3a :: name) := rfl
  have parsed : lineAttribute (js "a=mid:" ++ name) = .mid (some name) := by
    rw [line]
    unfold lineAttribute
    rw [if_neg (not_not.2 (List.prefix_append _ _)), parseAttr_line (by decide)]
    rfl
  rw [midOf, parsed]

theorem midOf_bare : midOf (js "a=mid") = some none := by decide

theorem lineAttribute_mid {line : JsString} {value : Option JsString} (h : lineAttribute line = .mid value) :
    js "a=" <+: line ∧ parseAttr line = (js "mid", value) := by
  unfold lineAttribute at h
  split at h
  · cases h
  · next starts =>
    refine ⟨not_not.1 starts, ?_⟩
    dsimp only at h
    split_ifs at h with own
    obtain rfl := Attribute.mid.inj h
    rw [← own]

/-- A value is what follows the colon of a mid line. -/
theorem midOf_eq_some {line : JsString} {value : Option JsString} (h : midOf line = some value) :
    line = js "a=mid" ∧ value = none ∨ ∃ name, line = js "a=mid:" ++ name ∧ value = some name := by
  unfold midOf at h
  split at h
  · next v read =>
    obtain rfl := Option.some.inj h
    obtain ⟨⟨t, rfl⟩, parsed⟩ := lineAttribute_mid read
    have dropped : (js "a=" ++ t).drop 2 = t := rfl
    unfold parseAttr at parsed
    rw [dropped] at parsed
    split at parsed
    · next colon =>
      right
      obtain ⟨own, rfl⟩ := Prod.mk.inj parsed
      have inside : 0x3a ∈ t := (List.mem_append.1 colon).resolve_left (by decide)
      obtain ⟨name, rest⟩ : ∃ name, t.dropWhile (· ≠ 0x3a) = 0x3a :: name := by
        cases e : t.dropWhile (· ≠ 0x3a) with
        | nil => simpa using List.dropWhile_eq_nil_iff.1 e 0x3a inside
        | cons u name =>
          have first : ¬decide (u ≠ 0x3a) = true := by
            have := List.head?_dropWhile_not (· ≠ (0x3a : UInt16)) t
            rw [e] at this
            simpa using this
          exact ⟨name, by rw [show u = 0x3a by simpa using first]⟩
      have whole := List.takeWhile_append_dropWhile (p := fun u : UInt16 => u ≠ 0x3a) (l := t)
      refine ⟨name, ?_, by rw [rest]; rfl⟩
      rw [← whole, own, rest]
      rfl
    · left
      obtain ⟨rfl, rfl⟩ := Prod.mk.inj parsed
      exact ⟨rfl, rfl⟩
  · cases h

theorem midOf_isSome (line : JsString) : (midOf line).isSome = isMid line := by
  rw [Bool.eq_iff_iff, Option.isSome_iff_exists, isMid, decide_eq_true_eq]
  constructor
  · intro h
    obtain ⟨value, h⟩ := h
    rcases midOf_eq_some h with ⟨rfl, -⟩ | ⟨name, rfl, -⟩
    · exact .inr rfl
    · exact .inl (List.prefix_append _ _)
  · intro h
    rcases h with ⟨name, rfl⟩ | rfl
    · exact ⟨some name, midOf_line name⟩
    · exact ⟨none, midOf_bare⟩

/-- The mid is the value of the mid line. -/
theorem mid_eq (s : MediaSection) : s.mid = ((s.midLine.bind midOf).join).getD [] := by
  have last : ∀ lines : List JsString, (lines.filterMap midOf).getLast? = (lines.filter isMid).getLast?.bind midOf := by
    intro lines
    induction lines using List.reverseRecOn with
    | nil => rfl
    | append_singleton lines line ih =>
      have here := midOf_isSome line
      rw [List.filterMap_append, List.filter_append, List.getLast?_append, List.getLast?_append, ih]
      cases own : midOf line with
      | none =>
        rw [own] at here
        simp [own, ← here]
      | some value =>
        rw [own] at here
        simp [own, ← here]
  rw [MediaSection.mid, MediaSection.midLine, last]

/-! ## Slots -/

/-- A text as the router holds it. -/
def text (s : JsString) : String := String.ofList s.chars

/-- The slot of a section; `videoSlot` of `app/cli.ts`. -/
def slotOf (s : MediaSection) (offered : OfferedVideo) : VideoSlot := ⟨text s.mid, text offered.profileLevelId⟩

/-- The slots of an accepted offer, in the order of its sections. -/
def slotsOf (sdp : JsString) (shape : OfferShape) : List VideoSlot := List.zipWith slotOf (document sdp).video shape.video

/-- 1 to 256 printable characters that are no spaces. -/
def Printable (name : JsString) : Prop := (∀ u ∈ name, 0x21 ≤ u ∧ u ≤ 0x7e) ∧ 1 ≤ name.length ∧ name.length ≤ 256

/-- A unit is printable exactly if its character is. -/
theorem printable_unit (u : UInt16) : (0x21 ≤ (Char.ofNat u.toNat).toNat ∧ (Char.ofNat u.toNat).toNat ≤ 0x7e) ↔
    (0x21 ≤ u ∧ u ≤ 0x7e) := by
  simp only [UInt16.le_iff_toNat_le, UInt16.reduceToNat]
  by_cases plain : u.toNat < 0xD800 ∨ 0xDFFF < u.toNat ∧ u.toNat < 0x110000
  · rw [toNat_ofNat plain]
  · have replaced : (Char.ofNat u.toNat).toNat = 0 := by
      unfold Char.ofNat
      rw [dif_neg]
      · rfl
      · exact plain
    rw [replaced]
    omega

theorem identifier_text (name : JsString) : identifier (text name) = true ↔ Printable name := by
  unfold identifier Printable text
  rw [String.toList_ofList, String.length_ofList]
  simp only [chars, List.length_map, Bool.and_eq_true, List.all_eq_true, List.mem_map, forall_exists_index, and_imp,
    forall_apply_eq_imp_iff₂, decide_eq_true_eq, printable_unit, and_assoc]

theorem text_inj {name name' : JsString} (printable : Printable name) (h : text name = text name') : name = name' := by
  have same : name.chars = name'.chars := by
    have := congrArg String.toList h
    rwa [text, text, String.toList_ofList, String.toList_ofList] at this
  have visible : ∀ c ∈ name.chars, 0 < c.toNat := by
    intro c hc
    obtain ⟨u, hu, rfl⟩ := List.mem_map.1 hc
    have := (printable_unit u).2 (printable.1 u hu)
    omega
  calc name = utf16 name.chars := eq_utf16_of_chars rfl visible
    _ = name' := (eq_utf16_of_chars same.symm visible).symm

/-! ## The mids of an offer -/

/-- The mids of the slots are identifiers, no two of them are the same, and the peer can
name every slot by its mid. -/
structure Named (slots : List VideoSlot) : Prop where
  identifiers : ∀ slot ∈ slots, identifier slot.mid = true
  distinct : (slots.map (·.mid)).Nodup
  nameable : ∀ η : Type, Nameable η slots

/-- The last mid line of every section is `a=mid:` and a printable name, and no two
sections have the same one. -/
structure WellNamed (sections : List MediaSection) : Prop where
  named : ∀ s ∈ sections, ∃ name, s.midLine = some (js "a=mid:" ++ name) ∧ Printable name
  distinct : sections.Pairwise fun s s' => s.midLine ≠ s'.midLine

theorem mid_of_midLine {s : MediaSection} {name : JsString} (h : s.midLine = some (js "a=mid:" ++ name)) : s.mid = name := by
  rw [mid_eq, h, Option.bind_some, midOf_line]
  rfl

/-- A mid that is not empty is written. -/
theorem midLine_of_mid {s : MediaSection} (h : s.mid ≠ []) : s.midLine = some (js "a=mid:" ++ s.mid) := by
  have here := mid_eq s
  cases last : s.midLine with
  | none =>
    rw [last] at here
    exact absurd here h
  | some line =>
    rw [last, Option.bind_some] at here
    cases read : midOf line with
    | none =>
      rw [read] at here
      exact absurd here h
    | some value =>
      rw [read, Option.join_some] at here
      rcases midOf_eq_some read with ⟨-, rfl⟩ | ⟨name, rfl, rfl⟩
      · exact absurd here h
      · rw [here]
        rfl

theorem mids_slotsOf {sdp : JsString} {maxVideo : ℚ} {shape : OfferShape} (h : parseOffer sdp maxVideo = .ok shape) :
    (slotsOf sdp shape).map (·.mid) = (document sdp).video.map fun s => text s.mid := by
  obtain ⟨_, -, -, -, -, slots⟩ := parseOffer_spec h
  have length := (mapM_getElem? slots).1
  rw [slotsOf, List.map_zipWith]
  apply List.ext_getElem
  · rw [List.length_zipWith, List.length_map, length, Nat.min_self]
  · intro i here there
    rw [List.getElem_zipWith, List.getElem_map]
    rfl

theorem wellNamed_iff (sections : List MediaSection) : WellNamed sections ↔
    (∀ s ∈ sections, identifier (text s.mid) = true) ∧ (sections.map fun s => text s.mid).Nodup := by
  rw [List.Nodup, List.pairwise_map]
  constructor
  · intro well
    have named : ∀ s ∈ sections, s.midLine = some (js "a=mid:" ++ s.mid) ∧ Printable s.mid := by
      intro s hs
      obtain ⟨name, line, printable⟩ := well.named s hs
      rw [mid_of_midLine line]
      exact ⟨line, printable⟩
    constructor
    · exact fun s hs => (identifier_text _).2 (named s hs).2
    · apply well.distinct.imp_of_mem
      intro s s' hs hs' apart same
      apply apart
      rw [(named s hs).1, (named s' hs').1, text_inj (named s hs).2 same]
  · intro h
    obtain ⟨identifiers, distinct⟩ := h
    constructor
    · intro s hs
      have printable := (identifier_text _).1 (identifiers s hs)
      refine ⟨s.mid, midLine_of_mid ?_, printable⟩
      exact List.ne_nil_of_length_pos printable.2.1
    · apply distinct.imp
      intro s s' apart same
      apply apart
      rw [mid_eq, mid_eq, same]

/-- For every accepted offer: the peer can name all its slots exactly if the last mid
lines of its video sections are `a=mid:` with distinct printable names. -/
theorem slots_named_iff {sdp : JsString} {maxVideo : ℚ} {shape : OfferShape} (h : parseOffer sdp maxVideo = .ok shape) :
    Named (slotsOf sdp shape) ↔ WellNamed (document sdp).video := by
  have mids := mids_slotsOf h
  have each : (∀ slot ∈ slotsOf sdp shape, identifier slot.mid = true) ↔
      ∀ s ∈ (document sdp).video, identifier (text s.mid) = true := by
    have mapped : (∀ m ∈ (slotsOf sdp shape).map (·.mid), identifier m = true) ↔
        ∀ m ∈ (document sdp).video.map fun s => text s.mid, identifier m = true := by rw [mids]
    simpa using mapped
  rw [wellNamed_iff, ← mids, ← each]
  constructor
  · exact fun named => ⟨named.identifiers, named.distinct⟩
  · exact fun named => ⟨named.1, named.2, fun _ => nameable named.1 named.2⟩

/-- The offer of one section with these attributes besides its codec. -/
def offerWith (attributes : List String) : JsString :=
  textOf (["v=0", "m=application 9 UDP/DTLS/SCTP webrtc-datachannel", "m=video 9 UDP/TLS/RTP/SAVPF 96", "a=recvonly"] ++
    attributes ++ ["a=rtpmap:96 H264/90000", "a=fmtp:96 packetization-mode=1;profile-level-id=42e01f"])

/-- The peer can name the slot of this offer. -/
theorem slots_named_browser :
    parseOffer browserOffer 1 = .ok ⟨some 1024, [⟨96, js "42e01f"⟩]⟩ ∧
      Named (slotsOf browserOffer ⟨some 1024, [⟨96, js "42e01f"⟩]⟩) := by
  have accepted : parseOffer browserOffer 1 = .ok ⟨some 1024, [⟨96, js "42e01f"⟩]⟩ := by decide +kernel
  have video : (document browserOffer).video.map (·.midLine) = [some (js "a=mid:" ++ js "1")] := by decide +kernel
  have printable : Printable (js "1") := (identifier_text _).1 (by decide)
  refine ⟨accepted, (slots_named_iff accepted).2 ⟨fun s mem => ⟨js "1", ?_, printable⟩, ?_⟩⟩
  · have line := List.mem_map_of_mem (f := (·.midLine)) mem
    rwa [video, List.mem_singleton] at line
  · obtain ⟨s, one⟩ := List.length_eq_one_iff.1 ((List.length_map _).symm.trans (congrArg List.length video))
    rw [one]
    exact List.pairwise_singleton _ s

/-- A section without a mid line is accepted, and a peer cannot unsubscribe its slot. -/
theorem slots_unnamed : ¬∀ (sdp : JsString) (maxVideo : ℚ) (shape : OfferShape), parseOffer sdp maxVideo = .ok shape →
    Named (slotsOf sdp shape) := by
  intro claim
  have accepted : parseOffer (offerWith []) 1 = .ok ⟨none, [⟨96, js "42e01f"⟩]⟩ := by decide +kernel
  have unnamed : (slotsOf (offerWith []) ⟨none, [⟨96, js "42e01f"⟩]⟩).all (fun slot => identifier slot.mid) = false := by
    decide +kernel
  rw [List.all_eq_true.2 (claim _ 1 _ accepted).identifiers] at unnamed
  cases unnamed

end RosBridge.Transport
