import RosBridge.Lib.Decimal
import RosBridge.Lib.Utf16
/-!
# JSON trees and their texts

Trees of integers, JavaScript strings, arrays and objects, and the text `JSON.stringify`
makes of them. The text of a tree determines it (`text_inj`), whatever strings are in it:
a string is read back from its literal (`unquote_quoteBody`).
-/

namespace RosBridge.Lib

open JsString

/-- A JSON value. An integer is in the range that is written in decimal digits; the fields
of an object are in the order in which it lists them. -/
inductive Tree where
  | null
  | boolean (value : Bool)
  | number (value : ℤ)
  | string (value : JsString)
  | array (items : List Tree)
  | object (fields : List (JsString × Tree))

namespace Tree

/-- The code units of a literal. -/
def units (text : String) : JsString := utf16 text.toList

/-- A hexadecimal digit. -/
def nibble (n : Nat) : UInt16 := UInt16.ofNat (if n < 10 then 48 + n else 87 + n)

def hex4 (u : UInt16) : JsString :=
  [nibble (u.toNat / 4096), nibble (u.toNat / 256 % 16), nibble (u.toNat / 16 % 16), nibble (u.toNat % 16)]

/-- A code unit that is not half of a pair, in a string literal. -/
def escapeUnit (u : UInt16) : JsString :=
  if u = 0x22 then [0x5c, 0x22]
  else if u = 0x5c then [0x5c, 0x5c]
  else if u = 8 then [0x5c, 0x62]
  else if u = 9 then [0x5c, 0x74]
  else if u = 10 then [0x5c, 0x6e]
  else if u = 12 then [0x5c, 0x66]
  else if u = 13 then [0x5c, 0x72]
  else if u < 0x20 ∨ isHigh u = true ∨ isLow u = true then 0x5c :: 0x75 :: hex4 u
  else [u]

/-- The code units of a string literal between the quotes. -/
def quoteBody : JsString → JsString
  | [] => []
  | [u] => escapeUnit u
  | u :: v :: rest =>
    if isHigh u = true ∧ isLow v = true then u :: v :: quoteBody rest else escapeUnit u ++ quoteBody (v :: rest)

/-- A string literal. -/
def quote (s : JsString) : JsString := 0x22 :: quoteBody s ++ [0x22]

mutual

/-- `JSON.stringify`. -/
def text : Tree → JsString
  | null => units "null"
  | boolean value => if value then units "true" else units "false"
  | number value => utf16 (decimalText value)
  | string value => quote value
  | array [] => units "[]"
  | array (item :: items) => 0x5b :: text item ++ textItems items ++ [0x5d]
  | object [] => units "\x7b\x7d"
  | object ((key, value) :: fields) => 0x7b :: quote key ++ 0x3a :: text value ++ textFields fields ++ [0x7d]

/-- The items after the first. -/
def textItems : List Tree → JsString
  | [] => []
  | item :: items => 0x2c :: text item ++ textItems items

/-- The fields after the first. -/
def textFields : List (JsString × Tree) → JsString
  | [] => []
  | (key, value) :: fields => 0x2c :: quote key ++ 0x3a :: text value ++ textFields fields

end

/-! ## String literals -/

def unnibble (u : UInt16) : Nat := if u.toNat < 58 then u.toNat - 48 else u.toNat - 87

/-- What an escape of one letter stands for. -/
def unescape (u : UInt16) : UInt16 :=
  if u = 0x62 then 8 else if u = 0x74 then 9 else if u = 0x6e then 10 else if u = 0x66 then 12 else if u = 0x72 then 13 else u

/-- Read a string literal after its opening quote; what follows it is left. -/
def unquote : JsString → Option (JsString × JsString)
  | [] => none
  | u :: rest =>
    if u = 0x22 then some ([], rest)
    else if u = 0x5c then
      match rest with
      | [] => none
      | e :: rest =>
        if e = 0x75 then
          match rest with
          | a :: b :: c :: d :: rest =>
            (unquote rest).map fun p =>
              (UInt16.ofNat (4096 * unnibble a + 256 * unnibble b + 16 * unnibble c + unnibble d) :: p.1, p.2)
          | _ => none
        else (unquote rest).map fun p => (unescape e :: p.1, p.2)
    else (unquote rest).map fun p => (u :: p.1, p.2)

theorem unnibble_nibble : ∀ n < 16, unnibble (nibble n) = n := by decide

theorem unquote_raw {u : UInt16} (quote : u ≠ 0x22) (backslash : u ≠ 0x5c) (rest : JsString) :
    unquote (u :: rest) = (unquote rest).map fun p => (u :: p.1, p.2) := by
  rw [unquote.eq_def]
  dsimp only
  rw [if_neg quote, if_neg backslash]

/-- A code unit is read back from its escape. -/
theorem unquote_escapeUnit (u : UInt16) (rest : JsString) :
    unquote (escapeUnit u ++ rest) = (unquote rest).map fun p => (u :: p.1, p.2) := by
  unfold escapeUnit
  split_ifs with h1 h2 h3 h4 h5 h6 h7 h8
  · subst h1
    rw [unquote.eq_def]
    rfl
  · subst h2
    rw [unquote.eq_def]
    rfl
  · subst h3
    rw [unquote.eq_def]
    rfl
  · subst h4
    rw [unquote.eq_def]
    rfl
  · subst h5
    rw [unquote.eq_def]
    rfl
  · subst h6
    rw [unquote.eq_def]
    rfl
  · subst h7
    rw [unquote.eq_def]
    rfl
  · have small := u.toNat_lt
    have value : 4096 * unnibble (nibble (u.toNat / 4096)) + 256 * unnibble (nibble (u.toNat / 256 % 16)) +
        16 * unnibble (nibble (u.toNat / 16 % 16)) + unnibble (nibble (u.toNat % 16)) = u.toNat := by
      rw [unnibble_nibble _ (by omega), unnibble_nibble _ (by omega), unnibble_nibble _ (by omega), unnibble_nibble _ (by omega)]
      omega
    have back : UInt16.ofNat u.toNat = u := UInt16.ofNat_toNat
    simp only [hex4, List.cons_append, List.nil_append]
    rw [unquote.eq_def]
    dsimp only
    rw [if_neg (by decide), if_pos rfl, if_pos rfl, value, back]
  · exact unquote_raw h1 h2 rest

theorem unquote_quoteBody (s rest : JsString) : unquote (quoteBody s ++ 0x22 :: rest) = some (s, rest) := by
  induction s using quoteBody.induct with
  | case1 =>
    rw [unquote.eq_def]
    rfl
  | case2 u =>
    rw [quoteBody, unquote_escapeUnit, unquote.eq_def]
    rfl
  | case3 u v s pair ih =>
    have high := isHigh_iff.1 pair.1
    have low := isLow_iff.1 pair.2
    have plain : ∀ w : UInt16, 0xD800 ≤ w.toNat → w ≠ 0x22 ∧ w ≠ 0x5c := by
      intro w large
      constructor
      · rintro rfl
        exact absurd large (by decide)
      · rintro rfl
        exact absurd large (by decide)
    obtain ⟨hu, hu'⟩ := plain u high.1
    obtain ⟨hv, hv'⟩ := plain v (by omega)
    rw [quoteBody, if_pos pair, List.cons_append, List.cons_append, unquote_raw hu hu', unquote_raw hv hv', ih]
    rfl
  | case4 u v s pair ih =>
    rw [quoteBody, if_neg pair, List.append_assoc, unquote_escapeUnit, ih]
    rfl

/-- A string and what follows are read back from the literal. -/
theorem quote_append_inj {s t r r' : JsString} (h : quote s ++ r = quote t ++ r') : s = t ∧ r = r' := by
  have same : quoteBody s ++ 0x22 :: r = quoteBody t ++ 0x22 :: r' := by simpa [quote] using h
  have read := unquote_quoteBody s r
  rw [same, unquote_quoteBody] at read
  cases read
  exact ⟨rfl, rfl⟩

/-! ## Numbers -/

/-- A unit of a decimal text: a digit or a minus sign, or one of two that stand between. -/
def InNumber (u : UInt16) : Prop := 0x2d ≤ u.toNat ∧ u.toNat ≤ 0x39

instance (u : UInt16) : Decidable (InNumber u) := inferInstanceAs (Decidable (_ ∧ _))

/-- What follows a value does not go on with a number. -/
def Ends (r : JsString) : Prop := ∀ u ∈ r.head?, ¬InNumber u

theorem ends_cons {u : UInt16} (h : ¬InNumber u) (r : JsString) : Ends (u :: r) := by
  intro v mem
  cases mem
  exact h

/-- A sequence of such units ends where they do. -/
theorem number_append_inj {xs ys r r' : JsString} (hx : ∀ u ∈ xs, InNumber u) (hy : ∀ u ∈ ys, InNumber u) (er : Ends r)
    (er' : Ends r') (h : xs ++ r = ys ++ r') : xs = ys ∧ r = r' := by
  induction xs generalizing ys with
  | nil =>
    cases ys with
    | nil => exact ⟨rfl, h⟩
    | cons y ys =>
      rw [List.nil_append] at h
      subst h
      exact absurd (hy y List.mem_cons_self) (er y rfl)
  | cons x xs ih =>
    cases ys with
    | nil =>
      rw [List.nil_append] at h
      subst h
      exact absurd (hx x List.mem_cons_self) (er' x rfl)
    | cons y ys =>
      rw [List.forall_mem_cons] at hx hy
      obtain ⟨rfl, rest⟩ := List.cons.inj h
      obtain ⟨rfl, rfl⟩ := ih hx.2 hy.2 rest
      exact ⟨rfl, rfl⟩

theorem decimalText_chars (z : ℤ) : decimalText z ≠ [] ∧ ∀ c ∈ decimalText z, 0x2d ≤ c.toNat ∧ c.toNat ≤ 0x39 := by
  have digits : ∀ n, ∀ c ∈ Nat.toDigits 10 n, 0x2d ≤ c.toNat ∧ c.toNat ≤ 0x39 := by
    intro n c mem
    have range := digit_toNat (Nat.isDigit_of_mem_toDigits (by omega) (by omega) mem)
    have zero : ('0' : Char).toNat = 48 := rfl
    omega
  rcases decimalText_cases z with ⟨rfl, e⟩ | ⟨n, pos, ⟨rfl, e⟩ | ⟨rfl, e⟩⟩
  · rw [e]
    refine ⟨List.cons_ne_nil _ _, fun c mem => ?_⟩
    rw [List.mem_singleton.1 mem]
    decide
  · obtain ⟨c, cs, text, -⟩ := toDigits_head pos
    rw [e]
    exact ⟨text ▸ List.cons_ne_nil _ _, digits n⟩
  · rw [e]
    exact ⟨List.cons_ne_nil _ _, List.forall_mem_cons.2 ⟨by decide, digits n⟩⟩

theorem decimal_inNumber (z : ℤ) : ∀ u ∈ utf16 (decimalText z), InNumber u := by
  intro u mem
  obtain ⟨c, inside, here⟩ := List.mem_flatMap.1 mem
  have range := (decimalText_chars z).2 c inside
  rw [utf16Char, if_pos (by omega), List.mem_singleton] at here
  rw [here, InNumber, UInt16.toNat_ofNat', Nat.mod_eq_of_lt (by omega)]
  exact range

theorem decimal_ne_nil (z : ℤ) : utf16 (decimalText z) ≠ [] := by
  obtain ⟨some, range⟩ := decimalText_chars z
  cases e : decimalText z with
  | nil => exact absurd e some
  | cons c cs =>
    rw [e, List.forall_mem_cons] at range
    rw [utf16, List.flatMap_cons, utf16Char, if_pos (by omega)]
    exact List.cons_ne_nil _ _

theorem decimal_inj {z w : ℤ} (h : utf16 (decimalText z) = utf16 (decimalText w)) : z = w := by
  have texts := congrArg chars h
  rw [chars_utf16 fun c mem => (decimalText_ascii z c mem).2, chars_utf16 fun c mem => (decimalText_ascii w c mem).2] at texts
  rw [← bigInt_decimalText z, texts, bigInt_decimalText]

/-! ## Texts -/

/-- The kinds of values. -/
def kind : Tree → Nat
  | null => 0
  | boolean _ => 1
  | number _ => 2
  | string _ => 3
  | array _ => 4
  | object _ => 5

/-- The kind of value that begins with a unit. -/
def kindOf (u : UInt16) : Nat :=
  if u = 0x6e then 0 else if u = 0x74 ∨ u = 0x66 then 1 else if u = 0x22 then 3 else if u = 0x5b then 4
  else if u = 0x7b then 5 else 2

theorem text_head (t : Tree) : ∃ u rest, text t = u :: rest ∧ kindOf u = kind t ∧ u ≠ 0x5d := by
  cases t with
  | null => exact ⟨0x6e, _, rfl, rfl, by decide⟩
  | boolean value =>
    cases value with
    | true => exact ⟨0x74, _, rfl, rfl, by decide⟩
    | false => exact ⟨0x66, _, rfl, rfl, by decide⟩
  | number value =>
    cases e : utf16 (decimalText value) with
    | nil => exact absurd e (decimal_ne_nil value)
    | cons u rest =>
      have range := decimal_inNumber value u (e ▸ List.mem_cons_self)
      have other : ∀ v : UInt16, ¬InNumber v → u ≠ v := fun v outside same => outside (same ▸ range)
      refine ⟨u, rest, e, ?_, other _ (by decide)⟩
      unfold kindOf
      rw [if_neg (other _ (by decide)), if_neg (not_or.2 ⟨other _ (by decide), other _ (by decide)⟩), if_neg (other _ (by decide)),
        if_neg (other _ (by decide)), if_neg (other _ (by decide))]
      rfl
  | string value => exact ⟨0x22, _, rfl, rfl, by decide⟩
  | array items =>
    cases items with
    | nil => exact ⟨0x5b, _, rfl, rfl, by decide⟩
    | cons item items => exact ⟨0x5b, _, by rw [text]; rfl, rfl, by decide⟩
  | object fields =>
    cases fields with
    | nil => exact ⟨0x7b, _, rfl, rfl, by decide⟩
    | cons field fields => exact ⟨0x7b, _, by rw [text]; rfl, rfl, by decide⟩

theorem kind_eq {t t' : Tree} {r r' : JsString} (h : text t ++ r = text t' ++ r') : kind t = kind t' := by
  obtain ⟨u, rest, e, known, -⟩ := text_head t
  obtain ⟨u', rest', e', known', -⟩ := text_head t'
  rw [e, e'] at h
  rw [← known, ← known', (List.cons.inj h).1]

theorem ends_items (items : List Tree) (r : JsString) : Ends (textItems items ++ 0x5d :: r) := by
  cases items with
  | nil => exact ends_cons (by decide) _
  | cons item items =>
    rw [textItems]
    exact ends_cons (by decide) _

theorem ends_fields (fields : List (JsString × Tree)) (r : JsString) : Ends (textFields fields ++ 0x7d :: r) := by
  cases fields with
  | nil => exact ends_cons (by decide) _
  | cons field fields =>
    rw [textFields]
    exact ends_cons (by decide) _

/-- No item begins with the bracket that closes an array. -/
theorem item_not_closed (t : Tree) (r r' : JsString) : text t ++ r ≠ 0x5d :: r' := by
  obtain ⟨u, rest, e, -, other⟩ := text_head t
  intro h
  rw [e] at h
  exact other (List.cons.inj h).1

theorem text_items (item : Tree) (items : List Tree) (r : JsString) :
    text (array (item :: items)) ++ r = 0x5b :: (text item ++ (textItems items ++ 0x5d :: r)) := by
  simp [text]

theorem text_fields (key : JsString) (value : Tree) (fields : List (JsString × Tree)) (r : JsString) :
    text (object ((key, value) :: fields)) ++ r =
      0x7b :: (quote key ++ (0x3a :: (text value ++ (textFields fields ++ 0x7d :: r)))) := by
  simp [text]

mutual

/-- The text of a value determines it, whatever follows. -/
theorem text_append_inj (t t' : Tree) {r r' : JsString} (er : Ends r) (er' : Ends r') (h : text t ++ r = text t' ++ r') :
    t = t' ∧ r = r' := by
  have kinds := kind_eq h
  cases t with
  | null =>
    cases t' with
    | null => exact ⟨rfl, List.append_cancel_left h⟩
    | _ => cases kinds
  | boolean value =>
    cases t' with
    | boolean value' =>
      cases value <;> cases value'
      · exact ⟨rfl, List.append_cancel_left h⟩
      · exact absurd (List.cons.inj h).1 (by decide)
      · exact absurd (List.cons.inj h).1 (by decide)
      · exact ⟨rfl, List.append_cancel_left h⟩
    | _ => cases kinds
  | number value =>
    cases t' with
    | number value' =>
      obtain ⟨same, rest⟩ := number_append_inj (decimal_inNumber value) (decimal_inNumber value') er er' h
      exact ⟨congrArg number (decimal_inj same), rest⟩
    | _ => cases kinds
  | string value =>
    cases t' with
    | string value' =>
      obtain ⟨rfl, rest⟩ := quote_append_inj h
      exact ⟨rfl, rest⟩
    | _ => cases kinds
  | array items =>
    cases t' with
    | array items' =>
      match items, items' with
      | [], [] => exact ⟨rfl, List.append_cancel_left h⟩
      | [], item' :: items' =>
        rw [text_items] at h
        exact absurd (List.cons.inj h).2.symm (item_not_closed item' _ _)
      | item :: items, [] =>
        rw [text_items] at h
        exact absurd (List.cons.inj h).2 (item_not_closed item _ _)
      | item :: items, item' :: items' =>
        rw [text_items, text_items] at h
        obtain ⟨rfl, others⟩ := text_append_inj item item' (ends_items _ _) (ends_items _ _) (List.cons.inj h).2
        obtain ⟨rfl, rfl⟩ := items_append_inj items items' others
        exact ⟨rfl, rfl⟩
    | _ => cases kinds
  | object fields =>
    cases t' with
    | object fields' =>
      match fields, fields' with
      | [], [] => exact ⟨rfl, List.append_cancel_left h⟩
      | [], (key', value') :: fields' =>
        rw [text_fields] at h
        exact absurd (List.cons.inj (List.cons.inj h).2).1 (by decide)
      | (key, value) :: fields, [] =>
        rw [text_fields] at h
        exact absurd (List.cons.inj (List.cons.inj h).2).1 (by decide)
      | (key, value) :: fields, (key', value') :: fields' =>
        rw [text_fields, text_fields] at h
        obtain ⟨rfl, after⟩ := quote_append_inj (List.cons.inj h).2
        obtain ⟨rfl, others⟩ := text_append_inj value value' (ends_fields _ _) (ends_fields _ _) (List.cons.inj after).2
        obtain ⟨rfl, rfl⟩ := fields_append_inj fields fields' others
        exact ⟨rfl, rfl⟩
    | _ => cases kinds

theorem items_append_inj (items items' : List Tree) {r r' : JsString}
    (h : textItems items ++ 0x5d :: r = textItems items' ++ 0x5d :: r') : items = items' ∧ r = r' := by
  match items, items' with
  | [], [] => exact ⟨rfl, (List.cons.inj h).2⟩
  | [], item' :: items' =>
    rw [textItems] at h
    exact absurd (List.cons.inj h).1 (by decide)
  | item :: items, [] =>
    rw [textItems] at h
    exact absurd (List.cons.inj h).1 (by decide)
  | item :: items, item' :: items' =>
    have rest : text item ++ (textItems items ++ 0x5d :: r) = text item' ++ (textItems items' ++ 0x5d :: r') := by
      simpa [textItems] using h
    obtain ⟨rfl, others⟩ := text_append_inj item item' (ends_items _ _) (ends_items _ _) rest
    obtain ⟨rfl, rfl⟩ := items_append_inj items items' others
    exact ⟨rfl, rfl⟩

theorem fields_append_inj (fields fields' : List (JsString × Tree)) {r r' : JsString}
    (h : textFields fields ++ 0x7d :: r = textFields fields' ++ 0x7d :: r') : fields = fields' ∧ r = r' := by
  match fields, fields' with
  | [], [] => exact ⟨rfl, (List.cons.inj h).2⟩
  | [], (key', value') :: fields' =>
    rw [textFields] at h
    exact absurd (List.cons.inj h).1 (by decide)
  | (key, value) :: fields, [] =>
    rw [textFields] at h
    exact absurd (List.cons.inj h).1 (by decide)
  | (key, value) :: fields, (key', value') :: fields' =>
    have rest : quote key ++ 0x3a :: (text value ++ (textFields fields ++ 0x7d :: r)) =
        quote key' ++ 0x3a :: (text value' ++ (textFields fields' ++ 0x7d :: r')) := by simpa [textFields] using h
    obtain ⟨rfl, after⟩ := quote_append_inj rest
    obtain ⟨rfl, others⟩ := text_append_inj value value' (ends_fields _ _) (ends_fields _ _) (List.cons.inj after).2
    obtain ⟨rfl, rfl⟩ := fields_append_inj fields fields' others
    exact ⟨rfl, rfl⟩

end

/-- The text of a value determines it. -/
theorem text_inj {t t' : Tree} (h : text t = text t') : t = t' := by
  have ends : Ends [] := by
    intro u mem
    cases mem
  apply (text_append_inj t t' ends ends _).1
  rw [h]

end Tree

end RosBridge.Lib
