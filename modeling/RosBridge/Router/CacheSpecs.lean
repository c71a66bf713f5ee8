import RosBridge.Router.RequestCache
import Mathlib.Algebra.BigOperators.Group.List.Basic
import Mathlib.Algebra.Order.BigOperators.Group.List
/-!
# What the cache's methods do

A cache is `Sound` when it keeps its limits and accounts for exactly what it holds.
-/

namespace RosBridge.Router

open Lib Prog

/-- The bytes a response is accounted for. -/
def Cached.size (e : Cached) : Int := utf16Length e.input * 2 + e.output.byteLength

/-- The cache has room for a response. -/
structure Storable (cache : RequestCache) (id input : String) (output : Bytes) : Prop where
  absent : cache.entries.get? id = none
  room : cache.entries.size < cache.maxEntries
  fits : cache.bytes + (utf16Length input * 2 + output.byteLength) ≤ cache.maxBytes
  plain : output.envelope.stream = none

namespace RequestCache

structure Sound (c : RequestCache) : Prop where
  size : c.entries.size ≤ c.maxEntries
  bytes : c.bytes = (c.entries.values.map (·.bytes)).sum
  bound : c.bytes ≤ c.maxBytes
  each : ∀ e ∈ c.entries.values, e.bytes = e.size

theorem size_nonneg (e : Cached) : 0 ≤ e.size := by
  unfold Cached.size
  positivity

theorem Sound.nonneg {c : RequestCache} (h : c.Sound) : 0 ≤ c.bytes := by
  rw [h.bytes]
  apply List.sum_nonneg
  intro b hb
  obtain ⟨e, he, rfl⟩ := List.mem_map.1 hb
  rw [h.each e he]
  exact size_nonneg e

theorem sound_create (maxEntries ttlMs maxBytes : Nat) : (create maxEntries ttlMs maxBytes).Sound :=
  ⟨Nat.zero_le _, rfl, by simp [create], fun _ he => absurd he (List.not_mem_nil)⟩

theorem sound_clear {c : RequestCache} : (clear.after c).Sound :=
  ⟨Nat.zero_le _, rfl, Int.natCast_nonneg _, fun _ he => absurd he (List.not_mem_nil)⟩

/-! ## Expiry -/

@[simp] theorem expire_after (t : ℚ) (c : RequestCache) : (expire t).after c = { c with
    bytes := c.bytes - ((c.entries.values.filter fun e => t ≥ e.expires).map (·.bytes)).sum
    entries := c.entries.filter fun _ e => !(t ≥ e.expires) } := rfl

theorem values_filter (t : Table String Cached) (p : Cached → Bool) :
    (t.filter fun _ e => p e).values = t.values.filter p := by
  simp only [Table.values, Table.filter, List.filter_map]
  rfl

/-- What is filtered out and what stays adds up. -/
theorem sum_filter (p : Cached → Bool) (es : List Cached) :
    ((es.filter fun e => !p e).map (·.bytes)).sum = (es.map (·.bytes)).sum - ((es.filter p).map (·.bytes)).sum := by
  induction es with
  | nil => rfl
  | cons e es ih =>
    cases h : p e
    · simp [h, ih]
      ring
    · simp [h, ih]

theorem Sound.expire {c : RequestCache} (h : c.Sound) (t : ℚ) : ((RequestCache.expire t).after c).Sound := by
  have values := values_filter c.entries fun e => !decide (t ≥ e.expires)
  have expired : 0 ≤ ((c.entries.values.filter fun e => decide (t ≥ e.expires)).map (·.bytes)).sum := by
    apply List.sum_nonneg
    intro b hb
    obtain ⟨e, he, rfl⟩ := List.mem_map.1 hb
    rw [h.each e (List.mem_filter.1 he).1]
    exact size_nonneg e
  rw [expire_after]
  refine ⟨(List.length_filter_le _ _).trans h.size, ?_, ?_, fun e he => ?_⟩
  · dsimp only
    rw [values, sum_filter, h.bytes]
  · have := h.bound
    dsimp only
    omega
  · rw [values] at he
    exact h.each e (List.mem_filter.1 he).1

/-- What is found after expiry was there before it and has not expired. -/
theorem get?_expire (t : ℚ) (c : RequestCache) (id : String) (e : Cached) :
    ((RequestCache.expire t).after c).entries.get? id = some e ↔ c.entries.get? id = some e ∧ t < e.expires := by
  rw [expire_after, Table.get?_filter, Option.filter_eq_some_iff]
  simp

/-! ## Storing -/

@[simp] theorem store_after (id input : String) (output : Bytes) (now : ℚ) (c : RequestCache) :
    (store id input output now).after c = { c with
      entries := c.entries.set id ⟨input, output, now + c.ttlMs, utf16Length input * 2 + output.byteLength⟩
      bytes := c.bytes + (utf16Length input * 2 + output.byteLength) } := rfl

theorem Sound.store {c : RequestCache} (h : c.Sound) {id input : String} {output : Bytes} (now : ℚ)
    (room : Storable c id input output) : ((RequestCache.store id input output now).after c).Sound := by
  have values : ∀ e, (c.entries.set id e).values = c.entries.values ++ [e] := by
    intro e
    simp [Table.values, Table.entries_set_of_get?_none _ room.absent]
  rw [store_after]
  refine ⟨?_, ?_, room.fits, fun e he => ?_⟩
  · rw [Table.size_set_of_get?_none _ room.absent]
    exact room.room
  · dsimp only
    rw [values, h.bytes]
    simp
  · rw [values] at he
    rcases List.mem_append.1 he with he | he
    · exact h.each e he
    · obtain rfl := List.mem_singleton.1 he
      rfl

/-! ## Looking up -/

theorem lookup_spec (id input : String) (now : ℚ) (c : RequestCache) :
    wp (lookup id input now)
      (fun found c' => c' = (RequestCache.expire now).after c ∧ match found with
        | some output => ∃ e, c'.entries.get? id = some e ∧ e.input = input ∧ e.output = output
        | none => c'.entries.get? id = none ∧ c'.entries.size < c'.maxEntries)
      (fun _ c' => c' = (RequestCache.expire now).after c) c := by
  have expired : wp (RequestCache.expire now) (fun _ c' => c' = (RequestCache.expire now).after c) (fun _ _ => False) c := rfl
  rw [lookup, wp_bind]
  refine wp_mono expired ?_ fun _ _ h => h.elim
  rintro _ c' rfl
  simp only [wp_bind, wp_get]
  split
  · next e found =>
    simp only [wp_bind, wp_throwIf, wp_pure]
    exact ⟨fun _ => trivial, fun same => ⟨trivial, e, found, not_not.1 same, rfl⟩⟩
  · next absent =>
    simp only [wp_bind, wp_get, wp_throwIf, wp_pure]
    exact ⟨fun _ => trivial, fun room => ⟨trivial, absent, not_le.1 room⟩⟩

/-- What is cached is found, if the input is the same. -/
theorem lookup_exec {id : String} {e : Cached} {now : ℚ} {c : RequestCache} (found : c.entries.get? id = some e)
    (alive : now < e.expires) (input : String) :
    (lookup id input now).exec c =
      (if e.input = input then .ok (some e.output) else .error "request_conflict", (RequestCache.expire now).after c) := by
  have expired : (RequestCache.expire now).exec c = (.ok (), (RequestCache.expire now).after c) := rfl
  have still := (get?_expire now c id e).2 ⟨found, alive⟩
  rw [lookup, exec_bind_ok expired, exec_bind, exec_get]
  dsimp only
  rw [still]
  by_cases same : e.input = input
  · simp [throwIf, same]
  · simp [throwIf, same]

theorem reserve_spec (maxResponseBytes : Nat) (c : RequestCache) :
    wp (reserve maxResponseBytes) (fun _ c' => c' = c ∧ c.bytes + maxResponseBytes ≤ c.maxBytes) (fun _ c' => c' = c) c := by
  simp only [reserve, wp_bind, wp_get, wp_throwIf]
  exact ⟨fun _ => trivial, fun room => ⟨trivial, by omega⟩⟩

end RequestCache

end RosBridge.Router
