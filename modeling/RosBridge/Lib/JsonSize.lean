import RosBridge.Lib.Json
/-!
# Sizes of JSON texts

The bytes of a text that `stringify` writes, from the bytes of its parts. A `Verbatim`
string is written as it is, a byte for a character.
-/

namespace RosBridge.Lib.Json

variable {numberText : ℚ → String}

/-- Printable ASCII that needs no escape. -/
def Verbatim (s : String) : Prop := ∀ c ∈ s.toList, 0x20 ≤ c.toNat ∧ c.toNat < 0x80 ∧ c ≠ '"' ∧ c ≠ '\\'

instance (s : String) : Decidable (Verbatim s) :=
  List.decidableBAll (fun c : Char => 0x20 ≤ c.toNat ∧ c.toNat < 0x80 ∧ c ≠ '"' ∧ c ≠ '\\') s.toList

theorem Verbatim.append {s t : String} (hs : Verbatim s) (ht : Verbatim t) : Verbatim (s ++ t) := by
  intro c mem
  rw [String.toList_append] at mem
  rcases List.mem_append.1 mem with mem | mem
  · exact hs c mem
  · exact ht c mem

theorem size_ofList {cs : List Char} (ascii : ∀ c ∈ cs, c.toNat < 0x80) : (String.ofList cs).utf8ByteSize = cs.length := by
  induction cs with
  | nil => rfl
  | cons c cs ih =>
    have rest := ih fun d mem => ascii d (List.mem_cons_of_mem c mem)
    have one : c.utf8Size = 1 := by
      have small := ascii c List.mem_cons_self
      unfold Char.utf8Size
      rw [if_pos]
      exact UInt32.le_iff_toNat_le.2 (Nat.le_of_lt_succ small)
    rw [← List.singleton_append, String.ofList_append, String.utf8ByteSize_append, rest, List.length_append]
    show (String.singleton c).utf8ByteSize + cs.length = _
    rw [String.utf8ByteSize_singleton, one]
    rfl

theorem Verbatim.size {s : String} (h : Verbatim s) : s.utf8ByteSize = s.length := by
  have ascii : ∀ c ∈ s.toList, c.toNat < 0x80 := fun c mem => (h c mem).2.1
  have size := size_ofList ascii
  rwa [String.ofList_toList, String.length_toList] at size

theorem Verbatim.quote {s : String} (h : Verbatim s) : Json.quote s = "\"" ++ s ++ "\"" := by
  have same : String.join (s.toList.map escape) = s := by
    have each : ∀ cs : List Char, (∀ c ∈ cs, escape c = c.toString) → String.join (cs.map escape) = String.ofList cs := by
      intro cs plain
      induction cs with
      | nil => rfl
      | cons c cs ih =>
        rw [List.map_cons, String.join_cons, plain c List.mem_cons_self, ih fun d mem => plain d (List.mem_cons_of_mem c mem),
          ← List.singleton_append, String.ofList_append]
        rfl
    rw [each s.toList, String.ofList_toList]
    intro c mem
    obtain ⟨low, -, quote, slash⟩ := h c mem
    unfold escape
    rw [if_neg quote, if_neg slash, if_neg (by omega), if_neg (by omega), if_neg (by omega), if_neg (by omega), if_neg (by omega),
      if_neg (by omega)]
  rw [Json.quote, same]

theorem Verbatim.size_quote {s : String} (h : Verbatim s) : (Json.quote s).utf8ByteSize = s.length + 2 := by
  rw [h.quote, String.utf8ByteSize_append, String.utf8ByteSize_append, h.size]
  show 1 + s.length + 1 = _
  omega

theorem size_separate (texts : List String) :
    (separate texts).utf8ByteSize = (texts.map String.utf8ByteSize).sum + (texts.length - 1) := by
  unfold separate
  induction texts with
  | nil => rfl
  | cons t texts ih =>
    cases texts with
    | nil => simp
    | cons u texts =>
      rw [String.intercalate_cons_cons, String.utf8ByteSize_append, String.utf8ByteSize_append, ih]
      show _ + 1 + _ = _
      simp only [List.map_cons, List.sum_cons, List.length_cons]
      omega

theorem stringifyItems_eq (items : List Json) : stringifyItems numberText items = items.map (stringify numberText) := by
  induction items with
  | nil => rfl
  | cons item items ih => rw [stringifyItems, ih, List.map_cons]

theorem stringifyFields_eq (fields : List (String × Json)) :
    stringifyFields numberText fields = fields.map fun f => Json.quote f.1 ++ ":" ++ stringify numberText f.2 := by
  induction fields with
  | nil => rfl
  | cons f fields ih => rw [stringifyFields, ih, List.map_cons]

/-- The bytes of a value. -/
def size (numberText : ℚ → String) (value : Json) : Nat := (stringify numberText value).utf8ByteSize

theorem size_string {s : String} (h : Verbatim s) : size numberText (.string s) = s.length + 2 := by
  rw [size, stringify, h.size_quote]

theorem size_array (items : List Json) :
    size numberText (.array items) = 2 + (items.map (size numberText)).sum + (items.length - 1) := by
  have each : items.map (size numberText) = (items.map (stringify numberText)).map String.utf8ByteSize := (List.map_map).symm
  rw [size, stringify, String.utf8ByteSize_append, String.utf8ByteSize_append, size_separate, stringifyItems_eq, List.length_map,
    each]
  show 1 + (_ + _) + 1 = _
  omega

theorem size_object (fields : List (String × Json)) :
    size numberText (.object fields) =
      2 + (fields.map fun f => (Json.quote f.1).utf8ByteSize + 1 + size numberText f.2).sum + (fields.length - 1) := by
  have each : ∀ f : String × Json, (Json.quote f.1 ++ ":" ++ stringify numberText f.2).utf8ByteSize =
      (Json.quote f.1).utf8ByteSize + 1 + size numberText f.2 := by
    intro f
    rw [String.utf8ByteSize_append, String.utf8ByteSize_append]
    rfl
  rw [size, stringify, String.utf8ByteSize_append, String.utf8ByteSize_append, size_separate, stringifyFields_eq, List.length_map,
    List.map_map]
  show 1 + (_ + _) + 1 = _
  simp only [Function.comp_def, each]
  omega

end RosBridge.Lib.Json
