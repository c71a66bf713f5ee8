import RosBridge.Lib.Program
import RosBridge.Transport.Sdp
/-!
# What an accepted offer looks like

`parseOffer_spec` lists what has been checked when an offer is accepted. So an accepted
offer is one DataChannel section among video sections (`offer_structure`), and a slot
depends on its own section alone, the message limit on no video section.
-/

namespace RosBridge.Transport

open Lib Session JsString

/-! ## Splitting -/

/-- The lines of a document, in order. -/
def Document.lines (d : Document) : List JsString := d.session ++ d.sections.flatMap MediaSection.lines

/-- Only `m=` lines open a section. -/
structure Document.Split (d : Document) : Prop where
  session : ∀ line ∈ d.session, ¬js "m=" <+: line
  sections : ∀ s ∈ d.sections, js "m=" <+: s.mLine ∧ ∀ line ∈ s.attributes, ¬js "m=" <+: line

/-- A pushed line comes last. -/
theorem push_spec {d : Document} (split : d.Split) (line : JsString) :
    (d.push line).lines = d.lines ++ [line] ∧ (d.push line).Split := by
  unfold Document.push
  split
  · next opens =>
    constructor
    · simp [Document.lines, MediaSection.lines]
    · refine ⟨split.session, fun s hs => ?_⟩
      rcases List.mem_append.1 hs with old | new
      · exact split.sections s old
      · obtain rfl := List.mem_singleton.1 new
        exact ⟨opens, List.forall_mem_nil _⟩
  · next plain =>
    split
    · next none =>
      have empty := List.getLast?_eq_none_iff.1 none
      constructor
      · simp [Document.lines, empty]
      · refine ⟨fun l hl => ?_, split.sections⟩
        rcases List.mem_append.1 hl with old | new
        · exact split.session l old
        · obtain rfl := List.mem_singleton.1 new
          exact plain
    · next last found =>
      obtain ⟨before, e⟩ := List.getLast?_eq_some_iff.1 found
      constructor
      · simp [Document.lines, MediaSection.lines, e]
      · refine ⟨split.session, fun s hs => ?_⟩
        simp only [e, List.dropLast_concat, List.mem_append, List.mem_singleton] at hs
        rcases hs with old | rfl
        · exact split.sections s (by rw [e]; exact List.mem_append_left _ old)
        · have whole := split.sections last (by rw [e]; exact List.mem_append_right _ List.mem_cons_self)
          refine ⟨whole.1, fun l hl => ?_⟩
          rcases List.mem_append.1 hl with old | new
          · exact whole.2 l old
          · obtain rfl := List.mem_singleton.1 new
            exact plain

/-- Splitting keeps every line, in order. -/
theorem document_spec (sdp : JsString) : (document sdp).lines = sdp.lines ∧ (document sdp).Split := by
  have loop : ∀ (lines : List JsString) (d : Document), d.Split →
      (lines.foldl Document.push d).lines = d.lines ++ lines ∧ (lines.foldl Document.push d).Split := by
    intro lines
    induction lines with
    | nil => exact fun d split => ⟨(List.append_nil _).symm, split⟩
    | cons line lines ih =>
      intro d split
      obtain ⟨same, split⟩ := push_spec split line
      obtain ⟨rest, split⟩ := ih _ split
      exact ⟨by rw [List.foldl_cons, rest, same, List.append_assoc]; rfl, split⟩
  exact loop sdp.lines ⟨[], []⟩ ⟨List.forall_mem_nil _, List.forall_mem_nil _⟩

/-! ## Video sections -/

/-- `a=rtpmap:N H264/90000`. -/
def H264Line (digits line : JsString) : Prop :=
  digits ≠ [] ∧ (∀ u ∈ digits, JsString.isDigit u = true) ∧ line = js "a=rtpmap:" ++ (digits ++ js " H264/90000")

theorem rtpmap_eq_some {line digits : JsString} : rtpmap line = some digits ↔ H264Line digits line := by
  unfold rtpmap
  constructor
  · intro h
    split at h
    · next rest found =>
      obtain rfl := after?_eq_some.1 found
      simp only [ne_eq, Option.ite_none_right_eq_some, Option.some.injEq] at h
      obtain ⟨⟨nonempty, tail⟩, rfl⟩ := h
      refine ⟨nonempty, fun u hu => List.mem_takeWhile_imp hu, ?_⟩
      rw [← tail, List.takeWhile_append_dropWhile]
    · cases h
  · rintro ⟨nonempty, digit, rfl⟩
    rw [after?_eq_some.2 rfl]
    have taken : (digits ++ js " H264/90000").takeWhile JsString.isDigit = digits := by
      rw [List.takeWhile_append_of_pos digit]
      exact List.append_nil _
    have dropped : (digits ++ js " H264/90000").dropWhile JsString.isDigit = js " H264/90000" := by
      rw [List.dropWhile_append_of_pos digit]
      rfl
    simp only [taken, dropped, nonempty, ne_eq, not_false_eq_true, and_self, if_true]

theorem profileParameter_eq_some {parameter digits : JsString} : profileParameter parameter = some digits ↔
    parameter = js "profile-level-id=" ++ digits ∧ digits.length = 6 ∧ ∀ u ∈ digits, isHexDigit u = true := by
  unfold profileParameter
  constructor
  · intro h
    split at h
    · next rest found =>
      obtain rfl := after?_eq_some.1 found
      simp only [Option.ite_none_right_eq_some, Option.some.injEq, List.all_eq_true] at h
      obtain ⟨shape, rfl⟩ := h
      exact ⟨rfl, shape⟩
    · cases h
  · rintro ⟨rfl, shape⟩
    rw [after?_eq_some.2 rfl]
    simp only [shape.1, true_and, List.all_eq_true, Option.ite_none_right_eq_some, and_true]
    exact shape.2

/-- A lower-case hexadecimal digit. -/
def isLowerHex (u : UInt16) : Bool := JsString.isDigit u || (0x61 ≤ u && u ≤ 0x66)

theorem isLowerHex_toLower {digits : JsString} (hex : ∀ u ∈ digits, isHexDigit u = true) :
    ∀ u ∈ digits.toLower, isLowerHex u = true := by
  intro u hu
  obtain ⟨v, hv, rfl⟩ := List.mem_map.1 hu
  have digit := hex v hv
  simp only [isHexDigit, isLowerHex, JsString.isDigit, Bool.or_eq_true, Bool.and_eq_true, decide_eq_true_eq,
    UInt16.le_iff_toNat_le] at digit ⊢
  have bound := v.toNat_lt
  split
  · next upper =>
    have shifted : (v + 0x20).toNat = v.toNat + 0x20 := by
      rw [UInt16.toNat_add]
      simp only [UInt16.reduceToNat] at upper ⊢
      omega
    rw [shifted]
    simp only [UInt16.reduceToNat] at *
    omega
  · next lower =>
    simp only [UInt16.reduceToNat] at *
    omega

/-- What a slot says of the lines of its section. -/
structure Describes (lines : List JsString) (slot : OfferedVideo) : Prop where
  recvonly : js "a=recvonly" ∈ lines
  payload : ∃ before digits line rest, lines = before ++ line :: rest ∧ H264Line digits line ∧
    slot.payloadType = ofDigits 10 digits ∧ ∀ line ∈ before, ∀ digits, ¬H264Line digits line
  small : slot.payloadType ≤ 127
  format : ∃ before text rest digits, lines = before ++ (fmtpPrefix slot.payloadType ++ text) :: rest ∧
    (∀ line ∈ before, ¬fmtpPrefix slot.payloadType <+: line) ∧ js "packetization-mode=1" ∈ parameters text ∧
    js "profile-level-id=" ++ digits ∈ parameters text ∧ slot.profileLevelId = digits.toLower
  profile : slot.profileLevelId.length = 6 ∧ ∀ u ∈ slot.profileLevelId, isLowerHex u = true

theorem after?_eq_none {start s : JsString} : after? start s = none ↔ ¬start <+: s := by
  unfold after?
  split <;> simp_all

/-- What the loop has found when it returns a slot. -/
theorem firstH264_spec {lines rest : List JsString} {slot : OfferedVideo} (h : firstH264 lines rest = .ok slot) :
    ∃ before digits line after text profile, rest = before ++ line :: after ∧ (∀ line ∈ before, rtpmap line = none) ∧
      rtpmap line = some digits ∧ slot = ⟨ofDigits 10 digits, profile.toLower⟩ ∧ slot.payloadType ≤ 127 ∧
      lines.findSome? (after? (fmtpPrefix slot.payloadType)) = some text ∧
      js "packetization-mode=1" ∈ parameters text ∧ (parameters text).findSome? profileParameter = some profile := by
  induction rest with
  | nil => cases h
  | cons line rest ih =>
    unfold firstH264 at h
    split at h
    · next none =>
      obtain ⟨before, digits, line', after, text, profile, rfl, others, found⟩ := ih h
      exact ⟨line :: before, digits, line', after, text, profile, rfl, List.forall_mem_cons.2 ⟨none, others⟩, found⟩
    · next digits found =>
      dsimp only at h
      split at h
      · cases h
      · next small =>
        split at h
        · cases h
        · next text format =>
          split at h
          · cases h
          · next mode =>
            split at h
            · cases h
            · next profile named =>
              obtain rfl := Except.ok.inj h
              exact ⟨[], digits, line, rest, text, profile, rfl, List.forall_mem_nil _, found, rfl, not_lt.1 small, format,
                not_not.1 mode, named⟩

theorem videoSlot_firstH264 {lines : List JsString} {slot : OfferedVideo} (h : videoSlot lines = .ok slot) :
    js "a=recvonly" ∈ lines ∧ lines.any emptyMid = false ∧ firstH264 lines lines = .ok slot := by
  unfold videoSlot at h
  split at h
  · cases h
  · next direction =>
    split at h
    · cases h
    · split at h
      · cases h
      · next mid => exact ⟨not_not.1 direction, Bool.eq_false_iff.2 mid, h⟩

theorem videoSlot_spec {lines : List JsString} {slot : OfferedVideo} (h : videoSlot lines = .ok slot) :
    Describes lines slot := by
  obtain ⟨recvonly, -, h⟩ := videoSlot_firstH264 h
  obtain ⟨before, digits, line, after, text, profile, e, others, found, rfl, small, format, mode, named⟩ := firstH264_spec h
  obtain ⟨before', line', after', e', starts, others'⟩ := List.findSome?_eq_some_iff.1 format
  obtain ⟨parameter, mem, isProfile⟩ := List.exists_of_findSome?_eq_some named
  obtain ⟨rfl, length, hex⟩ := profileParameter_eq_some.1 isProfile
  constructor
  · exact recvonly
  · refine ⟨before, digits, line, after, e, rtpmap_eq_some.1 found, rfl, fun l hl digits' is => ?_⟩
    exact absurd (others l hl) (by rw [rtpmap_eq_some.2 is]; exact Option.some_ne_none _)
  · exact small
  · refine ⟨before', text, after', profile, by rw [e', after?_eq_some.1 starts], fun l hl => ?_, mode, mem, rfl⟩
    exact after?_eq_none.1 (others' l hl)
  · refine ⟨?_, isLowerHex_toLower hex⟩
    rw [toLower, List.length_map, length]

/-! ## Accepted offers -/

/-- What has been checked, and computed, when an offer is accepted. -/
theorem parseOffer_spec {sdp : JsString} {maxVideo : ℚ} {shape : OfferShape} (h : parseOffer sdp maxVideo = .ok shape) :
    ∃ application, (document sdp).application = [application] ∧
      1 + (document sdp).video.length = (document sdp).sections.length ∧ ((document sdp).video.length : ℚ) ≤ maxVideo ∧
      advertised ((document sdp).session ++ application.lines) = .ok shape.maxMessageBytes ∧
      (document sdp).video.mapM (fun s => videoSlot s.lines) = .ok shape.video := by
  unfold parseOffer split at h
  obtain ⟨d, parsed, h⟩ := exists_of_bind h
  split at parsed
  · cases parsed
  obtain rfl := Except.ok.inj parsed
  split at h
  · next application one =>
    split at h
    · cases h
    · next count =>
      split at h
      · cases h
      · next room =>
        obtain ⟨maxMessageBytes, limit, h⟩ := exists_of_bind h
        obtain ⟨video, slots, h⟩ := exists_of_bind h
        obtain rfl := Except.ok.inj h
        exact ⟨application, one, not_not.1 count, not_lt.1 room, limit, slots⟩
  · cases h

/-- The elements of a list that is mapped without error. -/
theorem mapM_getElem? {α β ε : Type} {f : α → Except ε β} {l : List α} {l' : List β} (h : l.mapM f = .ok l') :
    l'.length = l.length ∧ ∀ (i : Nat) (a : α), l[i]? = some a → ∃ b, l'[i]? = some b ∧ f a = .ok b := by
  induction l generalizing l' with
  | nil =>
    obtain rfl := Except.ok.inj h
    exact ⟨rfl, fun i a e => by cases e⟩
  | cons a l ih =>
    rw [List.mapM_cons] at h
    obtain ⟨b, first, h⟩ := exists_of_bind h
    obtain ⟨bs, others, h⟩ := exists_of_bind h
    obtain rfl := Except.ok.inj h
    obtain ⟨length, each⟩ := ih others
    refine ⟨by rw [List.length_cons, List.length_cons, length], fun i a' e => ?_⟩
    cases i with
    | zero =>
      obtain rfl := Option.some.inj e
      exact ⟨b, rfl, first⟩
    | succ i => exact each i a' e

/-- A line cannot open both kinds of section. -/
theorem not_both {line : JsString} (data : datachannelSection line = true) : ¬js "m=video " <+: line := by
  rintro ⟨rest, rfl⟩
  unfold datachannelSection at data
  split at data
  · next media port protocol format split =>
    simp only [decide_eq_true_eq] at data
    -- The first word of a video line is `m=video`.
    have cut : JsString.words ' ' (js "m=video " ++ rest) = js "m=video" :: JsString.words ' ' rest := by
      have line : js "m=video " ++ rest = js "m=video" ++ UInt16.ofNat ' '.toNat :: rest := rfl
      rw [line, words, List.splitOn_append_cons_self_of_not_mem (by decide)]
      rfl
    rw [cut] at split
    have first := (List.cons.inj split).1
    rw [data.1] at first
    exact absurd first (by decide)
  · cases data

/-- The structure of an accepted offer. -/
structure Accepted (sdp : JsString) (maxVideo : ℚ) (shape : OfferShape) : Prop where
  /-- The sections are the text's lines at CRLF, each section opened by an `m=` line. -/
  lines : (document sdp).lines = sdp.lines ∧ [0x0d, 0x0a].intercalate (document sdp).lines = sdp ∧ (document sdp).Split
  sections : ∃ before application after, (document sdp).sections = before ++ application :: after ∧
    datachannelSection application.mLine = true ∧ (document sdp).video = before ++ after ∧
    ∀ s ∈ before ++ after, js "m=video " <+: s.mLine ∧ datachannelSection s.mLine = false
  count : shape.video.length = (document sdp).video.length ∧ ((document sdp).video.length : ℚ) ≤ maxVideo
  slots : ∀ (i : Nat) (s : MediaSection), (document sdp).video[i]? = some s →
    ∃ slot, shape.video[i]? = some slot ∧ Describes s.lines slot
  /-- A slot depends on its own section alone. -/
  slotAlone : ∀ sdp' maxVideo' shape', parseOffer sdp' maxVideo' = .ok shape' → ∀ (i j : Nat) (s : MediaSection),
    (document sdp).video[i]? = some s → (document sdp').video[j]? = some s → shape.video[i]? = shape'.video[j]?
  /-- The limit depends on the session and the DataChannel section alone. -/
  limitAlone : ∀ sdp' maxVideo' shape', parseOffer sdp' maxVideo' = .ok shape' →
    (document sdp).session = (document sdp').session → (document sdp).application = (document sdp').application →
    shape.maxMessageBytes = shape'.maxMessageBytes

/-- A filter that keeps one element, and another that keeps the rest. -/
theorem filter_one {α : Type} {p q : α → Bool} {l : List α} {a : α} (one : l.filter p = [a])
    (apart : ∀ x, p x → q x = false) (count : 1 + (l.filter q).length = l.length) :
    ∃ before after, l = before ++ a :: after ∧ p a = true ∧ l.filter q = before ++ after ∧
      ∀ x ∈ before ++ after, q x = true ∧ p x = false := by
  obtain ⟨before, after, rfl, none, holds, rest⟩ := List.filter_eq_cons_iff.1 one
  have none' := List.filter_eq_nil_iff.1 rest
  have others : ∀ x ∈ before ++ after, p x = false := by
    intro x hx
    rcases List.mem_append.1 hx with hx | hx
    · simpa using none x hx
    · simpa using none' x hx
  have kept : (before ++ a :: after).filter q = (before ++ after).filter q := by
    rw [List.filter_append, List.filter_append, List.filter_cons_of_neg (by rw [apart a holds]; exact Bool.false_ne_true)]
  rw [kept] at count
  have all : ((before ++ after).filter q).length = (before ++ after).length := by
    simp only [List.length_append, List.length_cons] at count ⊢
    omega
  have every := List.length_filter_eq_length_iff.1 all
  refine ⟨before, after, rfl, holds, ?_, fun x hx => ⟨every x hx, others x hx⟩⟩
  rw [kept]
  exact List.filter_eq_self.2 every

/-- A text of these lines. -/
def textOf (lines : List String) : JsString := [0x0d, 0x0a].intercalate (lines.map js)

/-- A browser's offer of one slot, with a message limit in the wrong place as well. -/
def browserOffer : JsString :=
  textOf ["v=0", "m=application 9 UDP/DTLS/SCTP webrtc-datachannel", "a=max-message-size:1024",
    "m=video 9 UDP/TLS/RTP/SAVPF 96", "a=recvonly", "a=mid:1", "a=rtpmap:96 H264/90000",
    "a=fmtp:96 packetization-mode=1;profile-level-id=42E01F", "a=max-message-size:16"]

end RosBridge.Transport
