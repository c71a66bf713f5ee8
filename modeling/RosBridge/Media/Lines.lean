import Mathlib.Data.List.Infix
import RosBridge.Lib.Chunks
import RosBridge.Lib.Program
/-!
# Lines from a worker

`lines` of `media/worker.ts`: a feed adds a chunk to what is pending and hands on every
complete line that is not empty; what then remains may not exceed the limit. The limit
is not checked on the lines handed on, so where a chunk ends decides whether a long line
is refused: `lines_any_chunking_iff`.
-/

namespace RosBridge.Media

open Lib Prog

def newline : UInt8 := 0x0a

def maxLineBytes : Nat := 8192

def lineError : String := "worker control line exceeded its limit"

/-- What `lines` keeps between chunks, beside the state of its callback. -/
structure LineReader (σ : Type) where
  pending : List UInt8
  inner : σ

/-- The first complete line of the pending bytes. -/
def firstLine (pending : List UInt8) : Front UInt8 (List UInt8) String :=
  match pending.idxOf? newline with
  | none => .short
  | some stop => .item (pending.take stop) (pending.drop (stop + 1))

section Reader

variable {σ : Type} (onLine : List UInt8 → Prog σ String Unit)

/-- The loop of a feed; it ends before `fuel` does when that exceeds the bytes pending. -/
def lineLoop : Nat → Prog (LineReader σ) String Unit
  | 0 => pure ()
  | fuel + 1 => do
    match firstLine (← get).pending with
    | .item line rest =>
      -- The line is gone before the callback runs, also when that throws.
      modify fun r => { r with pending := rest }
      when (0 < line.length) (zoom LineReader.inner (fun r inner => { r with inner }) (onLine line))
      lineLoop fuel
    | _ => pure ()

/-- The function that `lines` returns. -/
def lines (chunk : List UInt8) : Prog (LineReader σ) String Unit := do
  modify fun r => { r with pending := r.pending ++ chunk }
  lineLoop onLine ((← get).pending.length + 1)
  throwIf ((← get).pending.length > maxLineBytes) lineError

end Reader

/-! ## The format -/

theorem firstLine_item_iff {xs line rest : List UInt8} :
    firstLine xs = .item line rest ↔ newline ∉ line ∧ xs = line ++ newline :: rest := by
  unfold firstLine
  constructor
  · intro h
    split at h
    · cases h
    · next stop found =>
      obtain ⟨rfl, rfl⟩ := Front.item.inj h
      obtain ⟨within, here, before⟩ := List.idxOf?_eq_some_iff.1 found
      constructor
      · intro mem
        obtain ⟨j, small, there⟩ := List.mem_take_iff_getElem.1 mem
        exact before j (by omega) there
      · rw [← here, ← List.drop_eq_getElem_cons, List.take_append_drop]
  · rintro ⟨absent, rfl⟩
    have found : (line ++ newline :: rest).idxOf? newline = some line.length := by
      refine List.idxOf?_eq_some_iff.2 ⟨by simp, by simp, fun j small there => absent ?_⟩
      rw [List.getElem_append_left small] at there
      exact there ▸ List.getElem_mem small
    simp [found]

theorem firstLine_short_iff {xs : List UInt8} : firstLine xs = .short ↔ newline ∉ xs := by
  unfold firstLine
  rw [← List.idxOf?_eq_none_iff]
  split <;> simp_all

theorem firstLine_ne_invalid {xs : List UInt8} {e : String} : firstLine xs ≠ .invalid e := by
  unfold firstLine
  split <;> simp

def lining : Cutter UInt8 (List UInt8) String where
  cut := firstLine
  shrinks := by
    intro xs line rest h
    obtain ⟨-, rfl⟩ := firstLine_item_iff.1 h
    simp
    omega
  item_append := by
    intro xs line rest ys h
    obtain ⟨absent, rfl⟩ := firstLine_item_iff.1 h
    exact firstLine_item_iff.2 ⟨absent, by simp⟩
  invalid_append := fun _ h => absurd h firstLine_ne_invalid

/-- What a worker writes for these lines. -/
def printed (ls : List (List UInt8)) : List UInt8 := (ls.map (· ++ [newline])).flatten

@[simp] theorem printed_nil : printed [] = [] := rfl

@[simp] theorem printed_cons (l : List UInt8) (ls : List (List UInt8)) : printed (l :: ls) = l ++ newline :: printed ls := by
  simp [printed]

/-- A stream is read as the lines it consists of and an unfinished one. -/
theorem reads_printed {ls : List (List UInt8)} {left : List UInt8} (whole : ∀ l ∈ ls, newline ∉ l) (short : newline ∉ left) :
    Reads lining (printed ls ++ left) ls none left := by
  induction ls with
  | nil => exact .short (firstLine_short_iff.2 short)
  | cons l ls ih =>
    rw [List.forall_mem_cons] at whole
    apply Reads.item (firstLine_item_iff.2 ⟨whole.1, ?_⟩) (ih whole.2)
    simp

theorem of_reads {s left : List UInt8} {ls : List (List UInt8)} {e : Option String} (h : Reads lining s ls e left) :
    e = none ∧ s = printed ls ++ left ∧ (∀ l ∈ ls, newline ∉ l) ∧ newline ∉ left := by
  induction h with
  | short cut => exact ⟨rfl, rfl, by simp, firstLine_short_iff.1 cut⟩
  | invalid cut => exact absurd cut firstLine_ne_invalid
  | item cut _ ih =>
    obtain ⟨absent, rfl⟩ := firstLine_item_iff.1 cut
    obtain ⟨rfl, rfl, whole, short⟩ := ih
    exact ⟨rfl, by simp, List.forall_mem_cons.2 ⟨absent, whole⟩, short⟩

theorem exists_reads (s : List UInt8) : ∃ ls left, Reads lining s ls none left := by
  obtain ⟨ls, e, left, reads⟩ := Reads.exists_of lining s
  obtain rfl := (of_reads reads).1
  exact ⟨ls, left, reads⟩

/-! ## The loop -/

/-- A callback that keeps the lines it is given. -/
def keepLine (line : List UInt8) : Prog (List (List UInt8)) String Unit := modify (· ++ [line])

abbrev Collector := LineReader (List (List UInt8))

/-- The lines that are handed on. -/
def delivered (ls : List (List UInt8)) : List (List UInt8) := ls.filter (0 < ·.length)

theorem delivered_cons (l : List UInt8) (ls : List (List UInt8)) : delivered (l :: ls) = delivered [l] ++ delivered ls :=
  by
  rw [delivered, delivered, delivered, ← List.filter_append, List.singleton_append]

theorem exec_keep (line : List UInt8) (r : Collector) :
    (when (0 < line.length) (zoom LineReader.inner (fun r inner => { r with inner }) (keepLine line))).exec r =
      (.ok (), { r with inner := r.inner ++ delivered [line] }) := by
  by_cases h : 0 < line.length
  · simp only [when, delivered, List.filter_cons, h, decide_true, if_true, List.filter_nil]
    rfl
  · simp [when, delivered, h]

/-- The loop hands on what reading the pending bytes gives and leaves the unfinished line. -/
theorem lineLoop_reads {fuel : Nat} {r : Collector} {ls : List (List UInt8)} {left : List UInt8}
    (reads : Reads lining r.pending ls none left) (enough : r.pending.length < fuel) :
    (lineLoop keepLine fuel).exec r = (.ok (), ⟨left, r.inner ++ delivered ls⟩) := by
  induction fuel generalizing r ls with
  | zero => exact absurd enough (Nat.not_lt_zero _)
  | succ fuel ih =>
    have here : (get : Prog Collector String Collector).exec r = (.ok r, r) := rfl
    rw [lineLoop, exec_bind_ok here]
    cases reads with
    | short cut =>
      change firstLine r.pending = .short at cut
      rw [cut]
      simp [delivered]
    | @item _ rest _ line others _ cut reads =>
      have shorter := lining.shrinks cut
      change firstLine r.pending = .item line rest at cut
      have moved : (modify fun r => { r with pending := rest } : Prog Collector String Unit).exec r =
        (.ok (), ⟨rest, r.inner⟩) := rfl
      rw [cut]
      dsimp only
      rw [exec_bind_ok moved, exec_bind_ok (exec_keep line _), ih reads (by dsimp only; omega), delivered_cons line others,
        List.append_assoc]

/-- A feed: what is then pending decides whether it throws. -/
theorem lines_reads {chunk : List UInt8} {r : Collector} {ls : List (List UInt8)} {left : List UInt8}
    (reads : Reads lining (r.pending ++ chunk) ls none left) :
    (lines keepLine chunk).exec r =
      (if left.length > maxLineBytes then .error lineError else .ok (), ⟨left, r.inner ++ delivered ls⟩) := by
  set r' : Collector := { r with pending := r.pending ++ chunk } with hr'
  have added : (modify fun r => { r with pending := r.pending ++ chunk } : Prog Collector String Unit).exec r = (.ok (), r') := rfl
  have here : (get : Prog Collector String Collector).exec r' = (.ok r', r') := rfl
  have looped := lineLoop_reads (r := r') reads (Nat.lt_succ_self _)
  rw [lines, exec_bind_ok added, exec_bind_ok here, exec_bind_ok looped]
  set r'' : Collector := ⟨left, r'.inner ++ delivered ls⟩ with hr''
  have there : (get : Prog Collector String Collector).exec r'' = (.ok r'', r'') := rfl
  rw [exec_bind_ok there, throwIf]
  by_cases h : left.length > maxLineBytes
  · rw [if_pos h, if_pos h]
    rfl
  · rw [if_neg h, if_neg h]
    rfl

/-! ## A stream in chunks -/

/-- A reader that has been given the stream `s`. -/
def LineReader.Given (r : Collector) (s : List UInt8) : Prop :=
  ∃ ls, Reads lining s ls none r.pending ∧ r.inner = delivered ls

def LineReader.start : Collector := ⟨[], []⟩

theorem given_start : LineReader.start.Given [] := ⟨[], .short rfl, rfl⟩

/-- The chunks one after the other, up to the first that throws. -/
def feedLines : List (List UInt8) → Prog Collector String Unit
  | [] => pure ()
  | chunk :: chunks => do
    lines keepLine chunk
    feedLines chunks

/-- What is left of the stream exceeds the limit. -/
def Overflows (s : List UInt8) : Prop := ∃ ls left, Reads lining s ls none left ∧ maxLineBytes < left.length

theorem lines_given {r : Collector} {s : List UInt8} (h : r.Given s) (chunk : List UInt8) :
    ∃ r', r'.Given (s ++ chunk) ∧ ((¬Overflows (s ++ chunk) ∧ (lines keepLine chunk).exec r = (.ok (), r')) ∨
      (Overflows (s ++ chunk) ∧ (lines keepLine chunk).exec r = (.error lineError, r'))) := by
  obtain ⟨ls, reads, inner⟩ := h
  obtain ⟨more, left, reads'⟩ := exists_reads (r.pending ++ chunk)
  have whole := reads.append reads'
  refine ⟨⟨left, r.inner ++ delivered more⟩, ⟨ls ++ more, whole, ?_⟩, ?_⟩
  · rw [inner, delivered, delivered, delivered, List.filter_append]
  · rw [lines_reads reads']
    by_cases long : left.length > maxLineBytes
    · exact .inr ⟨⟨_, left, whole, long⟩, by rw [if_pos long]⟩
    · refine .inl ⟨?_, by rw [if_neg long]⟩
      rintro ⟨ls', left', again, long'⟩
      obtain ⟨-, -, rfl⟩ := again.unique whole
      exact long long'

/-- Feeding goes on to the first chunk after which too much is left. -/
theorem feedLines_cases {r : Collector} {s : List UInt8} (h : r.Given s) (chunks : List (List UInt8)) :
    (∃ r', (feedLines chunks).exec r = (.ok (), r') ∧ r'.Given (s ++ chunks.flatten) ∧
      ∀ i, 0 < i → i ≤ chunks.length → ¬Overflows (s ++ (chunks.take i).flatten)) ∨
    ∃ r' i, (feedLines chunks).exec r = (.error lineError, r') ∧ r'.Given (s ++ (chunks.take i).flatten) ∧ i ≤ chunks.length ∧
      Overflows (s ++ (chunks.take i).flatten) ∧ ∀ j, 0 < j → j < i → ¬Overflows (s ++ (chunks.take j).flatten) := by
  induction chunks generalizing r s with
  | nil =>
    refine .inl ⟨r, rfl, by simpa using h, fun i pos le => ?_⟩
    exact absurd pos (Nat.not_lt.2 le)
  | cons chunk chunks ih =>
    obtain ⟨r₁, given, ⟨fine, ran⟩ | ⟨bad, ran⟩⟩ := lines_given h chunk
    · rw [feedLines, exec_bind_ok ran]
      have later : ∀ i, s ++ ((chunk :: chunks).take (i + 1)).flatten = (s ++ chunk) ++ (chunks.take i).flatten := by simp
      rcases ih given with ⟨r', ran', given', none⟩ | ⟨r', i, ran', given', le, bad, first⟩
      · refine .inl ⟨r', ran', by simpa using given', fun i pos le => ?_⟩
        cases i with
        | zero => cases pos
        | succ i =>
          rw [later]
          cases i with
          | zero => simpa using fine
          | succ i => exact none (i + 1) (Nat.succ_pos i) (Nat.le_of_succ_le_succ le)
      · refine .inr ⟨r', i + 1, ran', later i ▸ given', Nat.succ_le_succ le, later i ▸ bad, fun j pos lt => ?_⟩
        cases j with
        | zero => cases pos
        | succ j =>
          rw [later]
          cases j with
          | zero => simpa using fine
          | succ j => exact first (j + 1) (Nat.succ_pos j) (Nat.lt_of_succ_lt_succ lt)
    · refine .inr ⟨r₁, 1, ?_, by simpa using given, by simp, by simpa using bad, fun j pos lt => ?_⟩
      · rw [feedLines, exec_bind_error ran]
      · exact absurd lt (Nat.not_lt.2 pos)

/-! ## Where the limit falls -/

theorem prefix_append_cases {p xs ys : List UInt8} (h : p <+: xs ++ ys) : p <+: xs ∨ ∃ q, p = xs ++ q ∧ q <+: ys := by
  obtain ⟨t, e⟩ := h
  rcases List.append_eq_append_iff.1 e with ⟨as, rfl, -⟩ | ⟨bs, rfl, rfl⟩
  · exact .inl ⟨as, rfl⟩
  · exact .inr ⟨bs, rfl, t, rfl⟩

/-- Up to `body` only what comes after all of `before` exceeds the limit. -/
theorem overflow_prefix {before : List (List UInt8)} {body p left : List UInt8} {ls : List (List UInt8)}
    (small : ∀ line ∈ before, newline ∉ line ∧ line.length ≤ maxLineBytes) (unbroken : newline ∉ body)
    (cut : p <+: printed before ++ body) (reads : Reads lining p ls none left) (long : maxLineBytes < left.length) :
    ls = before ∧ p = printed before ++ left := by
  induction before generalizing p ls with
  | nil =>
    have absent : newline ∉ p := fun mem => unbroken (cut.subset mem)
    obtain ⟨rfl, -, rfl⟩ := reads.unique (Reads.short (c := lining) (firstLine_short_iff.2 absent))
    exact ⟨rfl, rfl⟩
  | cons line before ih =>
    rw [List.forall_mem_cons] at small
    rw [printed_cons, List.append_assoc, List.cons_append] at cut
    rcases prefix_append_cases cut with within | ⟨q, rfl, cut'⟩
    · -- Within the first line less is left than the limit.
      have absent : newline ∉ p := fun mem => small.1.1 (within.subset mem)
      obtain ⟨-, -, rfl⟩ := reads.unique (Reads.short (c := lining) (firstLine_short_iff.2 absent))
      have := within.length_le
      omega
    · cases q with
      | nil =>
        rw [List.append_nil] at reads
        obtain ⟨-, -, rfl⟩ := reads.unique (Reads.short (c := lining) (firstLine_short_iff.2 small.1.1))
        omega
      | cons b q =>
        obtain ⟨rfl, tail⟩ := List.cons_prefix_cons.1 cut'
        have front : firstLine (line ++ newline :: q) = .item line q := firstLine_item_iff.2 ⟨small.1.1, rfl⟩
        obtain ⟨others, e, rest, reads'⟩ := Reads.exists_of lining q
        obtain ⟨rfl, rfl, rfl⟩ := reads.unique (.item front reads')
        obtain ⟨rfl, rfl⟩ := ih small.2 tail reads'
        exact ⟨rfl, by simp⟩

theorem overflows_of {before : List (List UInt8)} {body p : List UInt8} (whole : ∀ line ∈ before, newline ∉ line)
    (unbroken : newline ∉ body) (cut : p <+: printed before ++ body) (long : (printed before).length + maxLineBytes < p.length) :
    Overflows p := by
  rcases prefix_append_cases cut with within | ⟨q, rfl, within⟩
  · have := within.length_le
    omega
  · refine ⟨before, q, reads_printed whole fun mem => unbroken (within.subset mem), ?_⟩
    rw [List.length_append] at long
    omega

/-- The lines of a stream up to the first that is too long, and that line or what is left. -/
theorem exists_first (s : List UInt8) : ∃ before body rest, s = printed before ++ body ++ rest ∧
    (∀ line ∈ before, newline ∉ line ∧ line.length ≤ maxLineBytes) ∧ newline ∉ body ∧
    (rest = [] ∨ maxLineBytes < body.length ∧ ∃ after, rest = newline :: after) := by
  obtain ⟨ls, left, reads⟩ := exists_reads s
  obtain ⟨-, rfl, whole, short⟩ := of_reads reads
  clear reads
  induction ls with
  | nil => exact ⟨[], left, [], by simp, by simp, short, .inl rfl⟩
  | cons line ls ih =>
    rw [List.forall_mem_cons] at whole
    by_cases small : line.length ≤ maxLineBytes
    · obtain ⟨before, body, rest, e, smalls, unbroken, ends⟩ := ih whole.2
      refine ⟨line :: before, body, rest, ?_, List.forall_mem_cons.2 ⟨⟨whole.1, small⟩, smalls⟩, unbroken, ends⟩
      rw [printed_cons, printed_cons, List.append_assoc, List.cons_append, e]
      simp
    · exact ⟨[], line, newline :: (printed ls ++ left), by simp, by simp, whole.1, .inr ⟨Nat.lt_of_not_le small, _, rfl⟩⟩

/-- A complete line of a stream is read from it. -/
theorem mem_of_reads {before : List (List UInt8)} {long q left : List UInt8} {ls : List (List UInt8)} {e : Option String}
    (whole : ∀ line ∈ before, newline ∉ line) (unbroken : newline ∉ long)
    (reads : Reads lining (printed before ++ long ++ newline :: q) ls e left) : long ∈ ls := by
  obtain ⟨more, rest, reads'⟩ := exists_reads q
  obtain ⟨-, rfl, wholes, short⟩ := of_reads reads'
  have all : ∀ line ∈ before ++ long :: more, newline ∉ line := by
    intro line mem
    rcases List.mem_append.1 mem with mem | mem
    · exact whole line mem
    · rcases List.mem_cons.1 mem with rfl | mem
      · exact unbroken
      · exact wholes line mem
  have text : printed (before ++ long :: more) ++ rest = printed before ++ long ++ newline :: (printed more ++ rest) := by
    simp [printed]
  obtain ⟨rfl, -⟩ := (text ▸ reads_printed all short).unique reads
  simp

/-! ## Two ways to cut a stream -/

/-- Every line too long that only lines within the limit precede is noticed while it is
incomplete: a chunk ends more than the limit into it and not beyond it. -/
def Caught (chunks : List (List UInt8)) : Prop :=
  ∀ before long rest, chunks.flatten = printed before ++ long ++ newline :: rest →
    (∀ line ∈ before, newline ∉ line ∧ line.length ≤ maxLineBytes) → newline ∉ long → maxLineBytes < long.length →
      ∃ i ≤ chunks.length, (printed before).length + maxLineBytes < (chunks.take i).flatten.length ∧
        (chunks.take i).flatten.length ≤ (printed before).length + long.length

theorem flatten_take_chunks (chunks : List (List UInt8)) (i : Nat) : (chunks.take i).flatten <+: chunks.flatten :=
  (List.take_prefix i chunks).flatten

theorem take_flatten_mono (chunks : List (List UInt8)) {i j : Nat} (h : i ≤ j) :
    (chunks.take i).flatten <+: (chunks.take j).flatten := by
  have := flatten_take_chunks (chunks.take j) i
  rwa [List.take_take, Nat.min_eq_left h] at this

/-- Where every line too long is noticed, the stream alone decides how feeding it ends. -/
theorem ran_of_caught {chunks : List (List UInt8)} (caught : Caught chunks) {before : List (List UInt8)} {body rest : List UInt8}
    (text : chunks.flatten = printed before ++ body ++ rest)
    (smalls : ∀ line ∈ before, newline ∉ line ∧ line.length ≤ maxLineBytes) (unbroken : newline ∉ body)
    (ends : rest = [] ∨ maxLineBytes < body.length ∧ ∃ after, rest = newline :: after) :
    ∃ r, (feedLines chunks).exec .start = (if body.length > maxLineBytes then .error lineError else .ok (), r) ∧
      r.inner = delivered before := by
  -- Some chunk ends with too much of the body and nothing after it.
  have noticed : maxLineBytes < body.length → ∃ i ≤ chunks.length,
      (printed before).length + maxLineBytes < (chunks.take i).flatten.length ∧
        (chunks.take i).flatten.length ≤ (printed before).length + body.length := by
    intro long
    rcases ends with rfl | ⟨-, after, rfl⟩
    · refine ⟨chunks.length, Nat.le_refl _, ?_⟩
      rw [List.take_length, text]
      simp
      exact long
    · exact caught before body after text smalls unbroken long
  have within : ∀ i, (chunks.take i).flatten.length ≤ (printed before).length + body.length →
      (chunks.take i).flatten <+: printed before ++ body := by
    intro i short
    have part : printed before ++ body <+: chunks.flatten := ⟨rest, text.symm⟩
    apply List.prefix_of_prefix_length_le (flatten_take_chunks chunks i) part
    rwa [List.length_append]
  rcases feedLines_cases given_start chunks with ⟨r, ran, given, none⟩ | ⟨r, i, ran, given, le, bad, first⟩
  · have short : ¬body.length > maxLineBytes := by
      intro long
      obtain ⟨i, le, lower, upper⟩ := noticed long
      have pos : 0 < i := by
        by_contra zero
        obtain rfl : i = 0 := by omega
        simp at lower
      exact none i pos le (overflows_of (fun line mem => (smalls line mem).1) unbroken (within i upper) lower)
    obtain ⟨ls, reads, inner⟩ := given
    obtain rfl : rest = [] := ends.resolve_right fun h => short h.1
    have all : Reads lining ([] ++ chunks.flatten) before .none body := by
      rw [List.nil_append, text, List.append_nil]
      exact reads_printed (fun line mem => (smalls line mem).1) unbroken
    obtain ⟨rfl, -, -⟩ := reads.unique all
    exact ⟨r, by rw [if_neg short, ran], inner⟩
  · rw [List.nil_append] at bad given
    obtain ⟨ls, left, reads, long⟩ := bad
    have upper : (chunks.take i).flatten.length ≤ (printed before).length + body.length := by
      by_contra beyond
      rcases ends with rfl | ⟨big, -⟩
      · have whole := (flatten_take_chunks chunks i).length_le
        rw [text, List.append_nil, List.length_append] at whole
        omega
      · obtain ⟨j, le', lower, upper⟩ := noticed big
        have pos : 0 < j := by
          by_contra zero
          obtain rfl : j = 0 := by omega
          simp at lower
        have earlier : j < i := by
          by_contra later
          have := (take_flatten_mono chunks (Nat.le_of_not_lt later)).length_le
          omega
        apply first j pos earlier
        rw [List.nil_append]
        exact overflows_of (fun line mem => (smalls line mem).1) unbroken (within j upper) lower
    obtain ⟨rfl, whole⟩ := overflow_prefix smalls unbroken (within i upper) reads long
    obtain ⟨ls', reads', inner⟩ := given
    obtain ⟨rfl, -, -⟩ := reads'.unique reads
    have big : body.length > maxLineBytes := by
      have lengths := congrArg List.length whole
      rw [List.length_append] at lengths
      omega
    exact ⟨r, by rw [if_pos big, ran], inner⟩

/-- Where no line too long is handed on, every one was noticed. -/
theorem caught_of_bounded {chunks : List (List UInt8)}
    (bounded : ∀ line ∈ ((feedLines chunks).after .start).inner, line.length ≤ maxLineBytes) : Caught chunks := by
  intro before long rest text smalls unbroken big
  by_contra missed
  have wholes : ∀ line ∈ before, newline ∉ line := fun line mem => (smalls line mem).1
  -- What has been read beyond the line contains it.
  have holds : ∀ {r : Collector} {p q : List UInt8}, p = printed before ++ long ++ newline :: q → r.Given p → long ∈ r.inner := by
    intro r p q e given
    obtain ⟨ls, reads, inner⟩ := given
    rw [inner, delivered]
    have mem := mem_of_reads wholes unbroken (e ▸ reads)
    have pos : 0 < long.length := by omega
    simpa [List.mem_filter, mem] using pos
  rcases feedLines_cases given_start chunks with ⟨r, ran, given, -⟩ | ⟨r, i, ran, given, le, bad, -⟩
  · have mem := holds text (List.nil_append _ ▸ given)
    have := bounded long (by rwa [after, ran])
    omega
  · rw [List.nil_append] at bad given
    obtain ⟨ls, left, reads, large⟩ := bad
    have cut := flatten_take_chunks chunks i
    rw [text] at cut
    rcases prefix_append_cases cut with within | ⟨q, e, tail⟩
    · obtain ⟨rfl, whole⟩ := overflow_prefix smalls unbroken within reads large
      refine missed ⟨i, le, ?_, ?_⟩
      · rw [whole, List.length_append]
        omega
      · have := within.length_le
        rwa [List.length_append] at this
    · cases q with
      | nil =>
        rw [List.append_nil] at e
        obtain ⟨rfl, whole⟩ := overflow_prefix smalls unbroken (e ▸ List.prefix_refl _) reads large
        refine missed ⟨i, le, ?_, ?_⟩
        · rw [whole, List.length_append]
          omega
        · rw [e, List.length_append]
      | cons b q =>
        obtain ⟨rfl, -⟩ := List.cons_prefix_cons.1 tail
        have mem := holds e given
        have := bounded long (by rwa [after, ran])
        omega

/-- Every line of the stream, complete or not, is within the limit. -/
def Within (s : List UInt8) : Prop := ∀ line, line <:+: s → newline ∉ line → line.length ≤ maxLineBytes

/-- Two ways to cut a stream that end alike, hand on no line too long and refuse no stream
within the limit. -/
structure Independent (chunks chunks' : List (List UInt8)) : Prop where
  delivers : ((feedLines chunks).after .start).inner = ((feedLines chunks').after .start).inner
  fails : ((feedLines chunks).exec .start).1 = .ok () ↔ ((feedLines chunks').exec .start).1 = .ok ()
  bounded : ∀ line ∈ ((feedLines chunks).after .start).inner ++ ((feedLines chunks').after .start).inner,
    line.length ≤ maxLineBytes
  accepts : Within chunks.flatten →
    ((feedLines chunks).exec .start).1 = .ok () ∧ ((feedLines chunks').exec .start).1 = .ok ()

/-- The chunking does not matter exactly where every line too long is noticed. -/
theorem lines_any_chunking_iff (chunks chunks' : List (List UInt8)) (same : chunks.flatten = chunks'.flatten) :
    Independent chunks chunks' ↔ Caught chunks ∧ Caught chunks' := by
  constructor
  · rintro ⟨-, -, bounded, -⟩
    constructor
    · exact caught_of_bounded fun line mem => bounded line (List.mem_append_left _ mem)
    · exact caught_of_bounded fun line mem => bounded line (List.mem_append_right _ mem)
  · rintro ⟨caught, caught'⟩
    obtain ⟨before, body, rest, text, smalls, unbroken, ends⟩ := exists_first chunks.flatten
    obtain ⟨r, ran, inner⟩ := ran_of_caught caught text smalls unbroken ends
    obtain ⟨r', ran', inner'⟩ := ran_of_caught caught' (same ▸ text) smalls unbroken ends
    refine ⟨?_, ?_, ?_, ?_⟩
    · rw [after, after, ran, ran', inner, inner']
    · rw [ran, ran']
    · intro line mem
      rw [after, after, ran, ran', inner, inner', List.mem_append, or_self] at mem
      exact (smalls line (List.mem_of_mem_filter mem)).2
    · intro within
      have infixed : body <:+: chunks.flatten := ⟨printed before, rest, text.symm⟩
      have short : ¬body.length > maxLineBytes := Nat.not_lt.2 (within body infixed unbroken)
      rw [ran, ran', if_neg short]
      exact ⟨rfl, rfl⟩

/-- A text within the limit has no line too long. -/
theorem caught_of_short {chunks : List (List UInt8)} (short : chunks.flatten.length ≤ maxLineBytes) : Caught chunks := by
  intro before long rest text _ _ big
  rw [text, List.length_append, List.length_append] at short
  omega

/-- A short line in two chunks or in one. -/
theorem lines_any_chunking_iff_short : Independent [[120, 121], [newline]] [[120, 121, newline]] := by
  have two : Caught [[120, 121], [newline]] := caught_of_short (by decide)
  have one : Caught [[120, 121, newline]] := caught_of_short (by decide)
  exact (lines_any_chunking_iff [[120, 121], [newline]] [[120, 121, newline]] rfl).2 ⟨two, one⟩

/-- A line that is one byte too long is refused when its newline comes later, and handed on
when it comes in the same chunk. -/
theorem lines_long_in_one_chunk :
    ¬Independent [List.replicate (maxLineBytes + 1) 120, [newline]] [List.replicate (maxLineBytes + 1) 120 ++ [newline]] := by
  intro same
  have caught := caught_of_bounded fun line mem => same.bounded line (List.mem_append_right _ mem)
  obtain ⟨i, le, lower, upper⟩ := caught [] (List.replicate (maxLineBytes + 1) 120) [] (by simp) (by simp)
    (by simp [newline]) (by simp)
  cases i with
  | zero => simp at lower
  | succ i =>
    have none : (printed []).length = 0 := rfl
    simp only [List.take_succ_cons, List.take_nil, List.flatten_cons, List.flatten_nil, List.append_nil, List.length_append,
      List.length_cons, List.length_nil, List.length_replicate] at upper
    omega

end RosBridge.Media
