import RosBridge.Transport.Reading
/-!
# Two readers of one offer

`videoSlot` takes the first H.264 line and the first format line of its payload, and is
content with one `a=recvonly`. The negotiator lets the last direction and the last
format line count, reads names and numbers more liberally, and throws at lines that the
validator never looks at. They agree exactly on the offers where this makes no
difference (`readers_agree_iff`).
-/

namespace RosBridge.Transport

open Lib Session JsString RosJson

/-! ## Agreement -/

/-- Format parameters that a slot stands for: packetization mode 1 and its profile, in
either case. -/
def Fits (text : JsString) (slot : OfferedVideo) : Prop :=
  js "packetization-mode=1" ∈ parameters text ∧
    ∃ profile, js "profile-level-id=" ++ profile ∈ parameters text ∧ profile.toLower = slot.profileLevelId

/-- The negotiator has understood the section as the slot says. -/
structure Agree (byClock : Bool) (slot : OfferedVideo) (media : MediaDescription) : Prop where
  direction : media.direction = some .recvonly
  codec : ∃ codec text, media.stamped byClock = some codec ∧ codec.payloadType = .finite slot.payloadType ∧
    codec.parameters = some text ∧ Fits text slot

/-- The negotiator reads the offer, and section `k` as the slot says. -/
def ReadAlike (byClock : Bool) (sdp : JsString) (k : Nat) (slot : OfferedVideo) : Prop :=
  ∃ medias media, negotiate sdp = some medias ∧ medias[k]? = some media ∧ Agree byClock slot media

/-- No line of the section makes a difference to the negotiator that the validator does not see.
The payload type is that of the first line `a=rtpmap:N H264/90000`, and the profile the one in
the first line `a=fmtp:N`. -/
structure Alike (byClock : Bool) (s : MediaSection) : Prop where
  /-- The last direction is `recvonly`. -/
  direction : (s.attributes.filterMap directionOf).getLast? = some .recvonly
  /-- The first codec that is H.264 or has the payload type is both. -/
  codec : ∀ digits, s.lines.findSome? rtpmap = some digits → ∀ c,
    (s.attributes.filterMap codecLine).find? (fun c => c.isH264 byClock ∨ c.payloadType = .finite (ofDigits 10 digits)) = some c →
      c.isH264 byClock = true ∧ c.payloadType = .finite (ofDigits 10 digits)
  /-- The last format line of that payload type has the mode and the profile of the first. -/
  format : ∀ digits first profile, s.lines.findSome? rtpmap = some digits →
    s.lines.findSome? (after? (fmtpPrefix (ofDigits 10 digits))) = some first →
    (parameters first).findSome? profileParameter = some profile →
    ∀ last, (s.attributes.filterMap (formatLine (.finite (ofDigits 10 digits)))).getLast? = some last →
      js "packetization-mode=1" ∈ parameters last ∧
        ∃ other, js "profile-level-id=" ++ other ∈ parameters last ∧ other.toLower = profile.toLower

/-! ## What the validator guarantees -/

theorem small_payload : ∀ p ≤ 127, double (p : Nat) = .finite (p : Nat) ∧ number (js (toString (p : Nat))) = .finite (p : Nat) ∧
    (js (toString (p : Nat))).all (· ≠ 0x20) = true := by decide +kernel

theorem divide_append {separator : UInt16} {head tail : JsString} (h : ∀ u ∈ head, u ≠ separator) :
    divide separator (head ++ separator :: tail) = (head, tail) := by
  have keep : ∀ u ∈ head, decide (u ≠ separator) = true := fun u hu => decide_eq_true (h u hu)
  unfold divide
  rw [List.takeWhile_append_of_pos keep, List.dropWhile_append_of_pos keep]
  simp

/-- A line of an attribute with a value. -/
theorem parseAttr_line {name value : JsString} (plain : name.all (· ≠ 0x3a) = true) :
    parseAttr (js "a=" ++ (name ++ 0x3a :: value)) = (name, some value) := by
  have colon : 0x3a ∈ js "a=" ++ (name ++ 0x3a :: value) := by simp
  have dropped : (js "a=" ++ (name ++ 0x3a :: value)).drop 2 = name ++ 0x3a :: value :=
    List.drop_left' (show (js "a=").length = 2 from rfl)
  unfold parseAttr
  rw [if_pos colon, dropped, divide_append fun u hu => of_decide_eq_true (List.all_eq_true.1 plain u hu)]

theorem digit_cases {u : UInt16} (h : JsString.isDigit u = true) : ∃ n < 10, u = UInt16.ofNat (0x30 + n) := by
  simp only [JsString.isDigit, Bool.and_eq_true, decide_eq_true_eq, UInt16.le_iff_toNat_le, UInt16.reduceToNat] at h
  refine ⟨u.toNat - 0x30, by omega, ?_⟩
  rw [Nat.add_sub_cancel' h.1, UInt16.ofNat_toNat]

/-- A digit is no space, no sign, no letter of a base, and a decimal digit. -/
theorem digit_plain {u : UInt16} (h : JsString.isDigit u = true) :
    isSpace u = false ∧ u ≠ 0x2d ∧ u ≠ 0x2b ∧ u ≠ 0x20 ∧ u ||| 0x20 ≠ 0x78 ∧ isDigitIn 10 u = true := by
  obtain ⟨n, lt, rfl⟩ := digit_cases h
  have all : ∀ n < 10, isSpace (UInt16.ofNat (0x30 + n)) = false ∧ UInt16.ofNat (0x30 + n) ≠ 0x2d ∧
      UInt16.ofNat (0x30 + n) ≠ 0x2b ∧ UInt16.ofNat (0x30 + n) ≠ 0x20 ∧ UInt16.ofNat (0x30 + n) ||| 0x20 ≠ 0x78 ∧
      isDigitIn 10 (UInt16.ofNat (0x30 + n)) = true := by decide +kernel
  exact all n lt

theorem parseInt_digits {digits : JsString} (nonempty : digits ≠ []) (digit : ∀ u ∈ digits, JsString.isDigit u = true) :
    parseInt digits = double (ofDigits 10 digits) := by
  have first : digits.dropWhile isSpace = digits := by
    cases digits with
    | nil => rfl
    | cons u rest => exact List.dropWhile_cons_of_neg (by rw [(digit_plain (digit u List.mem_cons_self)).1]; decide)
  have sign : signed digits = (false, digits) := by
    cases digits with
    | nil => rfl
    | cons u rest =>
      obtain ⟨-, minus, plus, -⟩ := digit_plain (digit u List.mem_cons_self)
      simp only [signed, minus, plus, if_false]
  have base : based [(0x78, 16)] digits = none := by
    unfold based
    split
    · next u v rest =>
      obtain ⟨-, -, -, -, letter, -⟩ := digit_plain (digit v (List.mem_cons_of_mem _ List.mem_cons_self))
      have unknown : (v ||| 0x20 == 0x78) = false := beq_eq_false_iff_ne.2 letter
      simp only [List.lookup_cons, List.lookup_nil, unknown, Option.map_none, ite_self]
    · rfl
  have all : digits.takeWhile (isDigitIn 10) = digits :=
    List.takeWhile_eq_self_iff.2 fun u hu => (digit_plain (digit u hu)).2.2.2.2.2
  unfold parseInt
  simp only [first, sign, base, Option.getD_none, all, nonempty, if_false, Bool.false_eq_true]

/-- The negotiator reads the line `videoSlot` has picked as the codec it is. -/
theorem codecLine_h264 {digits line : JsString} (h : H264Line digits line) (small : ofDigits 10 digits ≤ 127) :
    codecLine line = some ⟨js "H264", .finite 90000, .finite (ofDigits 10 digits), none⟩ := by
  obtain ⟨nonempty, digit, rfl⟩ := h
  have line : js "a=rtpmap:" ++ (digits ++ js " H264/90000") =
      js "a=" ++ (js "rtpmap" ++ 0x3a :: (digits ++ 0x20 :: js "H264/90000")) := rfl
  have parsed : lineAttribute (js "a=rtpmap:" ++ (digits ++ js " H264/90000")) =
      .rtpmap (some (digits ++ 0x20 :: js "H264/90000")) := by
    rw [line]
    unfold lineAttribute
    rw [if_neg (not_not.2 (List.prefix_append _ _)), parseAttr_line (by decide)]
    rfl
  have cut : divide 0x20 (digits ++ 0x20 :: js "H264/90000") = (digits, js "H264/90000") :=
    divide_append fun u hu => (digit_plain (digit u hu)).2.2.2.1
  have clock : parseInt (js "90000") = .finite 90000 := by decide +kernel
  have desc : divide 0x2f (js "H264/90000") = (js "H264", js "90000") := by decide
  have whole : (divide 0x2f (js "90000")).1 = js "90000" := by decide
  have slash : 0x2f ∈ js "H264/90000" := by decide
  simp only [codecLine, parsed, codecOf, cut, desc, slash, if_true, whole, clock, parseInt_digits nonempty digit, Option.map_some,
    (small_payload _ small).1]

theorem formatLine_starts {p : Nat} (small : p ≤ 127) (text : JsString) :
    formatLine (.finite p) (fmtpPrefix p ++ text) = some text := by
  obtain ⟨-, value, plain⟩ := small_payload p small
  have line : fmtpPrefix p ++ text = js "a=" ++ (js "fmtp" ++ 0x3a :: (js (toString p) ++ 0x20 :: text)) := by
    unfold fmtpPrefix
    rw [List.append_assoc, List.append_assoc]
    rfl
  have parsed : lineAttribute (fmtpPrefix p ++ text) = .fmtp (some (js (toString p) ++ 0x20 :: text)) := by
    rw [line]
    unfold lineAttribute
    rw [if_neg (not_not.2 (List.prefix_append _ _)), parseAttr_line (by decide)]
    rfl
  have cut : divide 0x20 (js (toString p) ++ 0x20 :: text) = (js (toString p), text) :=
    divide_append fun u hu => of_decide_eq_true (List.all_eq_true.1 plain u hu)
  have own : Number.same (.finite p) (.finite p) = true := same_iff.2 ⟨by simp, rfl⟩
  simp only [formatLine, parsed, formatOf, cut, value, own, if_true]

theorem getLast?_filterMap_of_mem {α β : Type} {f : α → Option β} {l : List α} {a : α} {b : β} (mem : a ∈ l) (h : f a = some b) :
    ∃ last, (l.filterMap f).getLast? = some last := by
  apply Option.ne_none_iff_exists'.1
  rw [Ne, List.getLast?_eq_none_iff]
  exact List.ne_nil_of_mem (List.mem_filterMap.2 ⟨a, mem, h⟩)

/-- The lines of a section that the validator has relied on, as the negotiator reads
them: none of them is the `m=` line. -/
structure Relied (byClock : Bool) (attributes : List JsString) (slot : OfferedVideo) : Prop where
  direction : ∃ d, (attributes.filterMap directionOf).getLast? = some d
  codec : ∃ c ∈ attributes.filterMap codecLine, c.isH264 byClock = true ∧ c.payloadType = .finite slot.payloadType
  format : ∃ text, (attributes.filterMap (formatLine (.finite slot.payloadType))).getLast? = some text

theorem videoSlot_relied {s : MediaSection} {slot : OfferedVideo} (h : videoSlot s.lines = .ok slot)
    (opened : js "m=" <+: s.mLine) (byClock : Bool) : Relied byClock s.attributes slot := by
  obtain ⟨recvonly, ⟨before, digits, line, rest, e, h264, payload, -⟩, small,
    ⟨before', text, rest', -, e', -, -, -, -⟩, -⟩ := videoSlot_spec h
  have under : ∀ {line : JsString}, line ∈ s.lines → js "a=" <+: line → line ∈ s.attributes := by
    intro line mem starts
    rcases List.mem_cons.1 mem with rfl | mem
    · obtain ⟨t, ht⟩ := starts
      obtain ⟨t', ht'⟩ := opened
      have first := congrArg List.head? (ht.trans ht'.symm)
      simp [js, utf16, utf16Char] at first
    · exact mem
  constructor
  · exact getLast?_filterMap_of_mem (under recvonly ⟨js "recvonly", rfl⟩) (b := .recvonly) (by decide)
  -- The line that the validator took the codec from is one the negotiator reads.
  · have mem : line ∈ s.attributes := by
      refine under (by rw [e]; exact List.mem_append_right _ List.mem_cons_self) ?_
      rw [h264.2.2]
      exact ⟨js "rtpmap:" ++ (digits ++ js " H264/90000"), rfl⟩
    rw [payload] at small ⊢
    refine ⟨_, List.mem_filterMap.2 ⟨line, mem, codecLine_h264 h264 small⟩, ?_, rfl⟩
    have name : (js "H264").toLower = js "h264" := by decide
    unfold OfferedCodec.isH264
    exact decide_eq_true ⟨name, fun _ => rfl⟩
  · have mem : fmtpPrefix slot.payloadType ++ text ∈ s.attributes := by
      refine under (by rw [e']; exact List.mem_append_right _ List.mem_cons_self) ?_
      unfold fmtpPrefix
      rw [List.append_assoc, List.append_assoc]
      exact ⟨js "fmtp:" ++ (js (toString slot.payloadType) ++ (js " " ++ text)), rfl⟩
    exact getLast?_filterMap_of_mem mem (formatLine_starts small text)

/-- The lines that a slot is made from. -/
theorem videoSlot_chosen {lines : List JsString} {slot : OfferedVideo} (h : videoSlot lines = .ok slot) :
    ∃ digits first profile, lines.findSome? rtpmap = some digits ∧
      lines.findSome? (after? (fmtpPrefix (ofDigits 10 digits))) = some first ∧
      (parameters first).findSome? profileParameter = some profile ∧ slot = ⟨ofDigits 10 digits, profile.toLower⟩ := by
  obtain ⟨-, -, h⟩ := videoSlot_firstH264 h
  obtain ⟨before, digits, line, after, text, profile, e, others, found, rfl, -, format, -, named⟩ := firstH264_spec h
  exact ⟨digits, text, profile, List.findSome?_eq_some_iff.2 ⟨before, line, after, e, found, others⟩, format, named, rfl⟩

/-- A slot and a reading of its section agree exactly where the two readers cannot be
told apart by a line. -/
theorem agree_iff {byClock : Bool} {s : MediaSection} {slot : OfferedVideo} {media : MediaDescription}
    (h : videoSlot s.lines = .ok slot) (opened : js "m=" <+: s.mLine) (read : s.read = some media) :
    Agree byClock slot media ↔ Alike byClock s := by
  obtain ⟨⟨d, hd⟩, ⟨c₀, mem₀, h264₀, payload₀⟩, text₀, format₀⟩ := videoSlot_relied h opened byClock
  obtain ⟨digits, first, profile, digitsHere, firstHere, profileHere, rfl⟩ := videoSlot_chosen h
  obtain ⟨direction, -, codecs⟩ := read_spec read byClock
  constructor
  · rintro ⟨recvonly, stamped, text, own, payload, parameters, fits⟩
    -- The first H.264 codec of the section is the one that has been stamped.
    obtain ⟨c₁, found⟩ : ∃ c₁, (s.attributes.filterMap codecLine).find? (OfferedCodec.isH264 byClock) = some c₁ :=
      Option.isSome_iff_exists.1 (List.find?_isSome.2 ⟨c₀, mem₀, h264₀⟩)
    obtain ⟨h264₁, before, after, split, others⟩ := List.find?_eq_some_iff_append.1 found
    obtain ⟨stamped', own', same, parameters'⟩ := codecs before c₁ after split h264₁ fun c hc => by simpa using others c hc
    obtain rfl : stamped = stamped' := Option.some.inj (own.symm.trans own')
    rw [parameters] at parameters'
    have payload₁ : c₁.payloadType = .finite (ofDigits 10 digits) := same.symm.trans payload
    split_ifs at parameters' with alone
    have apart : ∀ c ∈ before, c.payloadType ≠ .finite (ofDigits 10 digits) := by
      intro c hc e
      refine alone c hc (same_iff.2 ⟨?_, e.trans payload₁.symm⟩)
      rw [e]
      exact Number.noConfusion
    constructor
    · exact direction.symm.trans recvonly
    · intro digits' same c hc
      obtain rfl : digits = digits' := Option.some.inj (digitsHere.symm.trans same)
      have isFirst : (s.attributes.filterMap codecLine).find?
          (fun c => c.isH264 byClock ∨ c.payloadType = .finite (ofDigits 10 digits)) = some c₁ := by
        refine List.find?_eq_some_iff_append.2 ⟨decide_eq_true (.inl h264₁), before, after, split, fun c hc => ?_⟩
        have other : c.isH264 byClock = false := by simpa using others c hc
        simp [other, apart c hc]
      obtain rfl : c = c₁ := Option.some.inj (hc.symm.trans isFirst)
      exact ⟨h264₁, payload₁⟩
    · intro digits' first' profile' same here named last isLast
      obtain rfl : digits = digits' := Option.some.inj (digitsHere.symm.trans same)
      obtain rfl : first = first' := Option.some.inj (firstHere.symm.trans here)
      obtain rfl : profile = profile' := Option.some.inj (profileHere.symm.trans named)
      rw [payload₁] at parameters'
      obtain rfl : last = text := Option.some.inj (isLast.symm.trans parameters'.symm)
      exact fits
  -- The first line that the negotiator takes or that has the slot's number is both.
  · intro alike
    obtain ⟨c₁, found⟩ : ∃ c₁, (s.attributes.filterMap codecLine).find?
        (fun c => c.isH264 byClock ∨ c.payloadType = .finite (ofDigits 10 digits)) = some c₁ :=
      Option.isSome_iff_exists.1 (List.find?_isSome.2 ⟨c₀, mem₀, decide_eq_true (.inl h264₀)⟩)
    obtain ⟨h264₁, payload₁⟩ := alike.codec digits digitsHere c₁ found
    obtain ⟨-, before, after, split, others⟩ := List.find?_eq_some_iff_append.1 found
    have neither : ∀ c ∈ before, ¬c.isH264 byClock = true ∧ c.payloadType ≠ .finite (ofDigits 10 digits) := by
      intro c hc
      have := others c hc
      simpa [not_or] using this
    obtain ⟨stamped, own, same, parameters⟩ := codecs before c₁ after split h264₁ fun c hc => (neither c hc).1
    have alone : ∀ c ∈ before, ¬Number.same c.payloadType c₁.payloadType = true := by
      intro c hc e
      exact (neither c hc).2 ((same_iff.1 e).2.trans payload₁)
    rw [if_pos alone, payload₁, format₀] at parameters
    refine ⟨direction.trans alike.direction, stamped, text₀, own, same.trans payload₁, parameters, ?_⟩
    exact alike.format digits first profile digitsHere firstHere profileHere text₀ format₀

/-- An offer with a video section has more than one line. -/
theorem groupLines_eq {sdp : JsString} (several : 2 ≤ (document sdp).sections.length) : groupLines sdp = document sdp := by
  have lines : (document sdp).sections.length ≤ sdp.lines.length := by
    rw [← (document_spec sdp).1, Document.lines, List.length_append, List.length_flatMap]
    have each : ∀ sections : List MediaSection, sections.length ≤ (sections.map fun s => s.lines.length).sum := by
      intro sections
      induction sections with
      | nil => exact Nat.le_refl 0
      | cons s sections ih =>
        rw [List.length_cons, List.map_cons, List.sum_cons, MediaSection.lines, List.length_cons]
        omega
    exact Nat.le_add_left_of_le (each _)
  unfold groupLines
  rw [if_neg (by omega)]

/-- For every accepted offer and every slot: the negotiator reads the slot's section as the slot
says exactly where it reads the offer at all and no line tells the readers apart. -/
theorem readers_agree_iff {sdp : JsString} {maxVideo : ℚ} {shape : OfferShape} (h : parseOffer sdp maxVideo = .ok shape)
    {i k : Nat} {s : MediaSection} {slot : OfferedVideo} (found : (document sdp).video[i]? = some s)
    (returned : shape.video[i]? = some slot) (there : (document sdp).sections[k]? = some s) (byClock : Bool) :
    ReadAlike byClock sdp k slot ↔ (document sdp).Readable ∧ Alike byClock s := by
  obtain ⟨_, -, count, -, -, slots⟩ := parseOffer_spec h
  obtain ⟨slot', returned', accepted⟩ := (mapM_getElem? slots).2 i s found
  obtain rfl : slot = slot' := Option.some.inj (returned.symm.trans returned')
  have opened := ((document_spec sdp).2.sections s (List.mem_of_getElem? there)).1
  have some : 0 < (document sdp).video.length := List.length_pos_of_mem (List.mem_of_getElem? found)
  have read : negotiate sdp = (document sdp).read := congrArg Document.read (groupLines_eq (by omega))
  unfold ReadAlike
  rw [read]
  constructor
  · rintro ⟨medias, media, all, here, agree⟩
    obtain ⟨media', own, here'⟩ := document_read_spec all there
    obtain rfl : media = media' := Option.some.inj (here.symm.trans here')
    refine ⟨(document_read_isSome_iff _).1 ?_, (agree_iff accepted opened own).1 agree⟩
    rw [all]
    rfl
  · rintro ⟨readable, alike⟩
    obtain ⟨medias, all⟩ := Option.isSome_iff_exists.1 ((document_read_isSome_iff _).2 readable)
    obtain ⟨media, own, here⟩ := document_read_spec all there
    exact ⟨medias, media, all, here, (agree_iff accepted opened own).2 alike⟩

/-- The video section of `browserOffer`. -/
def browserSection : MediaSection :=
  ⟨js "m=video 9 UDP/TLS/RTP/SAVPF 96", ["a=recvonly", "a=mid:1", "a=rtpmap:96 H264/90000",
    "a=fmtp:96 packetization-mode=1;profile-level-id=42E01F", "a=max-message-size:16"].map js⟩

theorem browserSection_alike : Alike true browserSection where
  direction := by decide +kernel
  codec digits chosen c found := by
    obtain rfl : digits = js "96" := Option.some.inj (chosen.symm.trans (by decide +kernel))
    obtain rfl : c = ⟨js "H264", .finite 90000, .finite 96, none⟩ := Option.some.inj (found.symm.trans (by decide +kernel))
    decide +kernel
  format digits first profile chosen here named last isLast := by
    obtain rfl : digits = js "96" := Option.some.inj (chosen.symm.trans (by decide +kernel))
    have format : js "packetization-mode=1;profile-level-id=42E01F" = last := Option.some.inj (Eq.trans (by decide +kernel) isLast)
    have first' : js "packetization-mode=1;profile-level-id=42E01F" = first := Option.some.inj (Eq.trans (by decide +kernel) here)
    subst format first'
    obtain rfl : profile = js "42E01F" := Option.some.inj (named.symm.trans (by decide +kernel))
    exact ⟨by decide +kernel, js "42E01F", by decide +kernel, rfl⟩

/-- The negotiator reads this offer as the validator does, and none to which a format line of a
payload type without a codec is added. -/
theorem readers_agree_browser :
    ReadAlike true browserOffer 1 ⟨96, js "42e01f"⟩ ∧ ¬ReadAlike true (browserOffer ++ js "\r\na=fmtp:97 x") 1 ⟨96, js "42e01f"⟩ := by
  have offered : parseOffer browserOffer 1 = .ok ⟨some 1024, [⟨96, js "42e01f"⟩]⟩ ∧
      (document browserOffer).video[0]? = some browserSection ∧ (document browserOffer).sections[1]? = some browserSection ∧
      (document browserOffer).Readable := by decide +kernel
  have extended : parseOffer (browserOffer ++ js "\r\na=fmtp:97 x") 1 = .ok ⟨some 1024, [⟨96, js "42e01f"⟩]⟩ ∧
      (document (browserOffer ++ js "\r\na=fmtp:97 x")).video[0]? =
        some { browserSection with attributes := browserSection.attributes ++ [js "a=fmtp:97 x"] } ∧
      (document (browserOffer ++ js "\r\na=fmtp:97 x")).sections[1]? =
        some { browserSection with attributes := browserSection.attributes ++ [js "a=fmtp:97 x"] } ∧
      ¬(document (browserOffer ++ js "\r\na=fmtp:97 x")).Readable := by decide +kernel
  constructor
  · obtain ⟨accepted, found, there, readable⟩ := offered
    exact (readers_agree_iff accepted found rfl there true).2 ⟨readable, browserSection_alike⟩
  · obtain ⟨accepted, found, there, unreadable⟩ := extended
    intro read
    exact unreadable ((readers_agree_iff accepted found rfl there true).1 read).1

/-- A section that says `recvonly` first and `sendrecv` later. -/
def twoDirections : MediaSection :=
  ⟨js "m=video 9 UDP/TLS/RTP/SAVPF 96", ["a=recvonly", "a=mid:1", "a=rtpmap:96 H264/90000",
    "a=fmtp:96 packetization-mode=1;profile-level-id=42e01f", "a=sendrecv"].map js⟩

def twoDirectionsOffer : JsString :=
  [0x0d, 0x0a].intercalate (js "v=0" :: js "m=application 9 UDP/DTLS/SCTP webrtc-datachannel" :: twoDirections.lines)

/-- The validator accepts it as receive-only, the negotiator answers `sendrecv`. -/
theorem readers_disagree : ¬∀ (sdp : JsString) (maxVideo : ℚ) (shape : OfferShape), parseOffer sdp maxVideo = .ok shape →
    ∀ (i k : Nat) (s : MediaSection) (slot : OfferedVideo), (document sdp).video[i]? = some s → shape.video[i]? = some slot →
      (document sdp).sections[k]? = some s → ReadAlike true sdp k slot := by
  intro claim
  obtain ⟨accepted, found, there, read⟩ : parseOffer twoDirectionsOffer 1 = .ok ⟨none, [⟨96, js "42e01f"⟩]⟩ ∧
      (document twoDirectionsOffer).video[0]? = some twoDirections ∧ (document twoDirectionsOffer).sections[1]? = some twoDirections ∧
      (negotiate twoDirectionsOffer).map (·.map (·.direction)) = some [none, some .sendrecv] := by decide +kernel
  obtain ⟨medias, media, all, here, agree⟩ := claim _ 1 _ accepted 0 1 twoDirections ⟨96, js "42e01f"⟩ found rfl there
  have direction := congrArg (Option.map (·[1]?)) read
  rw [all] at direction
  simp [here, agree.direction] at direction

end RosBridge.Transport
