import RosBridge.App.Registry
import RosBridge.Lib.JsonSize
import RosBridge.Router.Inputs
/-!
# The size of a welcome

The names of an accepted configuration are printable ASCII, so a welcome has as many
bytes as its texts have characters (`size_welcome`).
-/

namespace RosBridge.App

open Lib Prog Session Router Json
open Config hiding string

/-! ## What a check yields -/

/-- Whatever `x` yields satisfies `P`. -/
def Yields {ε α : Type} (P : α → Prop) (x : Except ε α) : Prop := ∀ a, x = .ok a → P a

namespace Yields

variable {ε α β : Type} {P : α → Prop} {x y : Except ε α} {c : Prop} [Decidable c]

theorem bind {m : Except ε β} {f : β → Except ε α} (h : ∀ b, m = .ok b → Yields P (f b)) : Yields P (m >>= f) := by
  intro a ha
  obtain ⟨b, hb, ha⟩ := exists_of_bind ha
  exact h b hb a ha

theorem ite (hx : c → Yields P x) (hy : ¬c → Yields P y) : Yields P (if c then x else y) := by
  split
  · next h => exact hx h
  · next h => exact hy h

theorem dite {f : c → Except ε α} {g : ¬c → Except ε α} (hf : ∀ h, Yields P (f h)) (hg : ∀ h, Yields P (g h)) :
    Yields P (if h : c then f h else g h) := by
  split
  · next h => exact hf h
  · next h => exact hg h

theorem throw (e : ε) : Yields P (throw e : Except ε α) := fun _ h => by cases h

theorem pure {a : α} (h : P a) : Yields P (Pure.pure a : Except ε α) := fun _ e => Except.ok.inj e ▸ h

end Yields

/-- What a list of checks yields, one by one. -/
theorem forall₂_of_mapM {ε α β : Type} {f : α → Except ε β} {l : List α} {l' : List β} (h : l.mapM f = .ok l') :
    List.Forall₂ (fun a b => f a = .ok b) l l' := by
  induction l generalizing l' with
  | nil =>
    obtain rfl := Except.ok.inj h
    exact .nil
  | cons a l ih =>
    rw [List.mapM_cons] at h
    obtain ⟨b, first, h⟩ := exists_of_bind h
    obtain ⟨bs, rest, h⟩ := exists_of_bind h
    obtain rfl := Except.ok.inj h
    exact .cons first (ih rest)

theorem exists_of_mem_right {α β : Type} {R : α → β → Prop} {l : List α} {l' : List β} (h : List.Forall₂ R l l') {b : β}
    (mem : b ∈ l') : ∃ a ∈ l, R a b := by
  induction h with
  | nil => cases mem
  | cons first rest ih =>
    rcases List.mem_cons.1 mem with rfl | mem
    · exact ⟨_, List.mem_cons_self, first⟩
    · obtain ⟨a, found, related⟩ := ih mem
      exact ⟨a, List.mem_cons_of_mem _ found, related⟩

/-! ## Texts -/

/-- What the names of a configuration consist of. -/
def NameChar (c : Char) : Prop := c = '/' ∨ c.isAlphanum = true ∨ c = '_'

theorem NameChar.range {c : Char} (h : NameChar c) : 0x2f ≤ c.toNat ∧ c.toNat ≤ 0x7a ∧ c ≠ '\\' := by
  have plain : c.isAlphanum = true → 0x30 ≤ c.toNat ∧ c.toNat ≤ 0x7a ∧ c.toNat ≠ 0x5c := by
    have A : 'A'.val.toNat = 0x41 := rfl
    have Z : 'Z'.val.toNat = 0x5a := rfl
    have a : 'a'.val.toNat = 0x61 := rfl
    have z : 'z'.val.toNat = 0x7a := rfl
    have zero : '0'.val.toNat = 0x30 := rfl
    have nine : '9'.val.toNat = 0x39 := rfl
    delta Char.isAlphanum Char.isAlpha Char.isUpper Char.isLower Char.isDigit Char.toNat
    simp only [Bool.or_eq_true, Bool.and_eq_true, decide_eq_true_eq, ge_iff_le, UInt32.le_iff_toNat_le]
    omega
  rcases h with rfl | h | rfl
  · decide
  · obtain ⟨low, high, slash⟩ := plain h
    refine ⟨by omega, high, ?_⟩
    rintro rfl
    exact slash rfl
  · decide

theorem NameChar.verbatim {c : Char} (h : NameChar c) : 0x20 ≤ c.toNat ∧ c.toNat < 0x80 ∧ c ≠ '"' ∧ c ≠ '\\' := by
  obtain ⟨low, high, slash⟩ := h.range
  refine ⟨by omega, by omega, ?_, slash⟩
  rintro rfl
  exact absurd low (by decide)

theorem verbatim_of_accepts {r : Regex} (within : r.Within NameChar) {s : String} (accepted : r.accepts s = true) : Verbatim s :=
  fun c mem => (within.of_accepts accepted c mem).verbatim

theorem string_accepts {value : Option Json} {pattern : Regex} {path s : String} (h : Config.string value pattern path = .ok s) :
    pattern.accepts s = true := by
  unfold Config.string at h
  split at h
  · split at h
    · next accepted =>
      obtain rfl := Except.ok.inj h
      exact accepted
    · cases h
  · cases h

theorem nameSegment_within : nameSegment.Within NameChar := by
  constructor
  · intro c h
    rcases Bool.or_eq_true_iff.1 h with h | h
    · exact .inr (.inl (by simp [Char.isAlphanum, h]))
    · exact .inr (.inr (eq_of_beq h))
  · intro c h
    rcases Bool.or_eq_true_iff.1 h with h | h
    · exact .inr (.inl h)
    · exact .inr (.inr (eq_of_beq h))

theorem topicName_verbatim {value : Option Json} {path name : String} (h : topicName value path = .ok name) : Verbatim name := by
  obtain ⟨s, accepted, h⟩ := exists_of_bind h
  have slash : (Regex.lit '/').Within NameChar := fun c h => .inl (eq_of_beq h)
  have within : topicNamePattern.Within NameChar := ⟨⟨slash, nameSegment_within⟩, slash, nameSegment_within⟩
  have same : s = name := by
    revert h
    split
    · intro h
      cases h
    · exact Except.ok.inj
  exact same ▸ verbatim_of_accepts within (string_accepts accepted)

theorem rosType_verbatim {value : Option Json} {path rosType : String} (h : Config.string value rosTypePattern path = .ok rosType) :
    Verbatim rosType := by
  apply verbatim_of_accepts _ (string_accepts h)
  have word : ∀ c : Char, (c.isAlphanum || c == '_') = true → NameChar c := by
    intro c h
    rcases Bool.or_eq_true_iff.1 h with h | h
    · exact .inr (.inl h)
    · exact .inr (.inr (eq_of_beq h))
  have first : ∀ c : Char, c.isAlpha = true → NameChar c := fun c h => .inr (.inl (by simp [Char.isAlphanum, h]))
  have lit : ∀ c : Char, NameChar c → (Regex.lit c).Within NameChar := fun c named d h => (eq_of_beq h) ▸ named
  exact ⟨⟨first, word⟩, lit '/' (.inl rfl), lit 'm' (.inr (.inl rfl)), lit 's' (.inr (.inl rfl)), lit 'g' (.inr (.inl rfl)),
    lit '/' (.inl rfl), first, word⟩

/-- The names of a binding are written as they are. -/
theorem binding_verbatim (name : String) (value : Option Json) (options : ConfigOptions) :
    Yields (fun t => Verbatim t.publicName ∧ Verbatim t.rosType) (binding name value options) := by
  unfold binding
  refine .bind fun map _ => .bind fun publicName named => .bind fun target _ => ?_
  dsimp only
  -- Resolved or not, the name that ROS uses is no part of a welcome.
  split
  all_goals
    refine .bind fun resolved _ => .bind fun rosTopic _ => .bind fun rosType typed => ?_
    refine .ite (fun _ => .bind fun _ h => by cases h) fun _ => ?_
    refine .bind fun direction _ => .bind fun qos _ => .bind fun delivery _ => .bind fun maxRateHz _ => .bind fun queue _ => ?_
    refine .bind fun policy _ => .bind fun maxMessages _ => ?_
    refine .dite (fun _ => .throw _) fun _ => .dite (fun _ => .throw _) fun _ => ?_
    exact .bind fun access _ => .bind fun commandGuard _ => .pure ⟨topicName_verbatim named, rosType_verbatim typed⟩

/-- The topics of an accepted document. -/
theorem config_verbatim (yaml : String → Option Json) (source : String) (options : ConfigOptions) :
    Yields (fun config => ∀ t ∈ config.topics, Verbatim t.publicName ∧ Verbatim t.rosType)
      (parseBridgeConfig yaml source options) := by
  unfold parseBridgeConfig
  refine .bind fun maxBytes _ => .bind fun maxTopics _ => .bind fun document _ => .bind fun map _ => ?_
  split
  · refine .ite (fun _ => .bind fun _ h => by cases h) fun _ => ?_
    refine .bind fun robotId _ => .bind fun limits _ => .bind fun entries _ => ?_
    refine .ite (fun _ => .bind fun _ h => by cases h) fun _ => .bind fun topics read => .bind fun _ _ => .pure ?_
    intro t mem
    obtain ⟨e, -, checked⟩ := exists_of_mem_right (forall₂_of_mapM read) mem
    exact binding_verbatim e.1 (some e.2) options t checked
  · exact .throw _

theorem length_hex (n : Nat) : (Json.hex n).length = 2 := by
  rw [Json.hex, String.length_ofList]
  rfl

theorem length_hexDigest (digest : List UInt8) : (hexDigest digest).length = 2 * digest.length := by
  unfold hexDigest
  induction digest with
  | nil => rfl
  | cons byte digest ih =>
    rw [List.map_cons, String.join_cons, String.length_append, length_hex, ih, List.length_cons]
    omega

theorem hexDigest_verbatim (digest : List UInt8) : Verbatim (hexDigest digest) := by
  have each : ∀ n : Fin 256, Verbatim (Json.hex n) := by decide +kernel
  intro c mem
  rw [hexDigest, String.toList_join] at mem
  obtain ⟨text, found, mem⟩ := List.mem_flatMap.1 mem
  obtain ⟨byte, -, rfl⟩ := List.mem_map.1 found
  exact each ⟨byte.toNat, byte.toNat_lt⟩ c mem

theorem schemaId_verbatim (digest : List UInt8) : Verbatim ("sha256:" ++ hexDigest digest) :=
  Verbatim.append (by decide) (hexDigest_verbatim digest)

theorem intercalate_verbatim {sep : String} (h : Verbatim sep) {parts : List String} (each : ∀ p ∈ parts, Verbatim p) :
    Verbatim (sep.intercalate parts) := by
  induction parts with
  | nil =>
    intro c mem
    cases mem
  | cons p parts ih =>
    have rest := ih fun q mem => each q (List.mem_cons_of_mem p mem)
    cases parts with
    | nil => exact String.intercalate_singleton ▸ each p List.mem_cons_self
    | cons q parts =>
      rw [String.intercalate_cons_cons]
      exact ((each p List.mem_cons_self).append h).append rest

theorem randomUUID_verbatim (bytes : List UInt8) : Verbatim (randomUUID bytes) := by
  apply intercalate_verbatim (by decide)
  intro p mem
  simp only [List.mem_cons, List.not_mem_nil, or_false] at mem
  rcases mem with rfl | rfl | rfl | rfl | rfl <;> exact hexDigest_verbatim _

theorem length_randomUUID {bytes : List UInt8} (sixteen : bytes.length = 16) : (randomUUID bytes).length = 36 := by
  have dash : "-".length = 1 := rfl
  simp only [randomUUID, String.intercalate_cons_cons, String.intercalate_singleton, String.length_append, length_hexDigest,
    List.length_take, List.length_drop, sixteen, dash]
  decide

/-! ## Sizes -/

variable {numberText : ℚ → String}

theorem size_entry {e : CatalogEntry} (topic : Verbatim e.topic) (rosType : Verbatim e.rosType) (schemaId : Verbatim e.schemaId) :
    Json.size numberText (Envelope.CatalogEntry.json e) = 88 + e.topic.length + e.rosType.length + e.schemaId.length := by
  have direction : Verbatim (directionText e.direction) ∧ (directionText e.direction).length = 10 := by
    cases e.direction <;> decide
  have delivery : Verbatim (deliveryText e.delivery) ∧ (deliveryText e.delivery).length = 8 := by
    cases e.delivery <;> decide
  have keys : (Json.quote "topic").utf8ByteSize = 7 ∧ (Json.quote "ros_type").utf8ByteSize = 10 ∧
      (Json.quote "direction").utf8ByteSize = 11 ∧ (Json.quote "delivery").utf8ByteSize = 10 ∧
      (Json.quote "schema_id").utf8ByteSize = 11 := by decide +kernel
  obtain ⟨key₁, key₂, key₃, key₄, key₅⟩ := keys
  rw [Envelope.CatalogEntry.json, size_object]
  simp only [List.map_cons, List.map_nil, List.sum_cons, List.sum_nil, List.length_cons, List.length_nil, size_string topic,
    size_string rosType, size_string schemaId, size_string direction.1, size_string delivery.1, direction.2, delivery.2, key₁,
    key₂, key₃, key₄, key₅]
  omega

/-- The bytes of a topic in a welcome, of which the digest of its schema takes 64. -/
def entryBytes (topic : TopicBinding) : Nat := 159 + topic.publicName.length + topic.rosType.length

/-- The bytes of the list of tracks; an empty one is left out. -/
def trackBytes (tracks : List (String × String)) : Nat :=
  if tracks = [] then 0
  else 11 + (tracks.map fun t => 19 + (Json.quote t.1).utf8ByteSize + (Json.quote t.2).utf8ByteSize).sum + (tracks.length - 1)

/-- The bytes of a welcome that lists these topics and tracks. -/
def welcomeBytes (topics : List TopicBinding) (tracks : List (String × String)) : Nat :=
  82 + (topics.map entryBytes).sum + (topics.length - 1) + trackBytes tracks

/-- An entry of the catalog shows its topic. -/
structure Shows (e : CatalogEntry) (t : TopicBinding) : Prop where
  topic : e.topic = t.publicName
  rosType : e.rosType = t.rosType
  schemaId : Verbatim e.schemaId ∧ e.schemaId.length = 71

theorem size_catalog {catalog : List CatalogEntry} {topics : List TopicBinding} (shown : List.Forall₂ Shows catalog topics)
    (verbatim : ∀ t ∈ topics, Verbatim t.publicName ∧ Verbatim t.rosType) :
    ((catalog.map Envelope.CatalogEntry.json).map (Json.size numberText)).sum = (topics.map entryBytes).sum := by
  induction shown with
  | nil => rfl
  | @cons e t catalog topics shows rest ih =>
    obtain ⟨name, type⟩ := verbatim t List.mem_cons_self
    simp only [List.map_cons, List.sum_cons, ih fun t mem => verbatim t (List.mem_cons_of_mem _ mem)]
    rw [size_entry (shows.topic ▸ name) (shows.rosType ▸ type) shows.schemaId.1, shows.schemaId.2, shows.topic, shows.rosType,
      entryBytes]
    omega

theorem size_track (t : String × String) :
    Json.size numberText (.object [("track", .string t.1), ("codec", .string t.2)]) =
      19 + (Json.quote t.1).utf8ByteSize + (Json.quote t.2).utf8ByteSize := by
  have keys : (Json.quote "track").utf8ByteSize = 7 ∧ (Json.quote "codec").utf8ByteSize = 7 := by decide +kernel
  rw [size_object]
  simp only [List.map_cons, List.map_nil, List.sum_cons, List.sum_nil, List.length_cons, List.length_nil, keys.1, keys.2,
    Json.size, Json.stringify]
  omega

/-- The video field that a welcome has for these tracks. -/
def videoField (tracks : List (String × String)) : Option (List (String × String)) := if tracks = [] then none else some tracks

theorem size_welcome {numbers : NumberText} (one : numbers.text 1 = "1") {epoch : String}
    (uuid : Verbatim epoch ∧ epoch.length = 36) {catalog : List CatalogEntry} {topics : List TopicBinding}
    (shown : List.Forall₂ Shows catalog topics) (verbatim : ∀ t ∈ topics, Verbatim t.publicName ∧ Verbatim t.rosType)
    (tracks : List (String × String)) :
    (encode numbers (.welcome epoch catalog (videoField tracks))).byteLength = welcomeBytes topics tracks := by
  have keys : (Json.quote "v").utf8ByteSize = 3 ∧ (Json.quote "op").utf8ByteSize = 4 ∧ (Json.quote "epoch").utf8ByteSize = 7 ∧
      (Json.quote "catalog").utf8ByteSize = 9 ∧ (Json.quote "video").utf8ByteSize = 7 := by decide +kernel
  obtain ⟨v, op, key₁, key₂, key₃⟩ := keys
  have version : Json.size numbers.text (.number (some 1)) = 1 := by
    rw [Json.size, Json.stringify, one]
    rfl
  have welcome : Json.size numbers.text (.string "welcome") = 9 := size_string (by decide)
  have listed : Json.size numbers.text (.array (catalog.map Envelope.CatalogEntry.json)) =
      2 + (topics.map entryBytes).sum + (topics.length - 1) := by
    rw [size_array, size_catalog shown verbatim, List.length_map, shown.length_eq]
  show Json.size numbers.text (Envelope.welcome epoch catalog (videoField tracks)).json = _
  unfold Envelope.json videoField welcomeBytes trackBytes
  by_cases empty : tracks = []
  · rw [if_pos empty, if_pos empty, size_object]
    simp only [Envelope.head, Option.map_none, Option.toList_none, List.append_nil, List.cons_append, List.nil_append,
      List.map_cons, List.map_nil, List.sum_cons, List.sum_nil, List.length_cons, List.length_nil, size_string uuid.1, uuid.2,
      version, welcome, listed, v, op, key₁, key₂]
    omega
  · have each : Json.size numbers.text (.array (tracks.map fun t => .object [("track", .string t.1), ("codec", .string t.2)])) =
        2 + (tracks.map fun t => 19 + (Json.quote t.1).utf8ByteSize + (Json.quote t.2).utf8ByteSize).sum + (tracks.length - 1) := by
      rw [size_array, List.map_map, List.length_map]
      simp only [Function.comp_def, size_track]
    rw [if_neg empty, if_neg empty, size_object]
    simp only [Envelope.head, Option.map_some, Option.toList_some, List.cons_append, List.nil_append,
      List.map_cons, List.map_nil, List.sum_cons, List.sum_nil, List.length_cons, List.length_nil, size_string uuid.1, uuid.2,
      version, welcome, listed, each, v, op, key₁, key₂, key₃]
    omega

theorem size_error {numbers : NumberText} (one : numbers.text 1 = "1") : (encode numbers (.error none)).byteLength = 46 := by
  have keys : (Json.quote "v").utf8ByteSize = 3 ∧ (Json.quote "op").utf8ByteSize = 4 ∧ (Json.quote "code").utf8ByteSize = 6 := by
    decide +kernel
  have version : Json.size numbers.text (.number (some 1)) = 1 := by
    rw [Json.size, Json.stringify, one]
    rfl
  have texts : Json.size numbers.text (.string "error") = 7 ∧ Json.size numbers.text (.string "request_rejected") = 18 :=
    ⟨size_string (by decide), size_string (by decide)⟩
  show Json.size numbers.text (Envelope.error none).json = _
  rw [Envelope.json, size_object]
  simp only [Envelope.head, Option.map_none, Option.toList_none, List.cons_append, List.nil_append, List.map_cons, List.map_nil,
    List.sum_cons, List.sum_nil, List.length_cons, List.length_nil, version, texts.1, texts.2, keys.1, keys.2.1, keys.2.2]
  rfl

end RosBridge.App
