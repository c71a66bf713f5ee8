import RosBridge.Router.Protocol
/-!
# RequestCache

`router/request-cache.ts`: responses kept for their lifetime, so that a retransmitted
request has no second effect.
-/

namespace RosBridge.Router

open Lib Prog

structure Cached where
  input : String
  output : Bytes
  expires : ℚ
  bytes : Int

structure RequestCache where
  maxEntries : Nat
  ttlMs : Nat
  maxBytes : Nat
  entries : Table String Cached
  bytes : Int

namespace RequestCache

/-- A method of the cache. -/
abbrev CacheM := Prog RequestCache String

/-- Limits have already been validated by the router. -/
def create (maxEntries ttlMs maxBytes : Nat) : RequestCache := ⟨maxEntries, ttlMs, maxBytes, .empty, 0⟩

/-- Reclaim expired entries. -/
def expire (now : ℚ) : CacheM Unit := modify fun c => { c with
  bytes := c.bytes - ((c.entries.values.filter fun e => now ≥ e.expires).map (·.bytes)).sum
  entries := c.entries.filter fun _ e => !(now ≥ e.expires) }

/-- Reclaim expired entries and look up retransmissions. -/
def lookup (id input : String) (now : ℚ) : CacheM (Option Bytes) := do
  expire now
  match (← get).entries.get? id with
  | some existing =>
    throwIf (existing.input ≠ input) "request_conflict"
    return some existing.output
  | none =>
    let c ← get
    throwIf (c.entries.size ≥ c.maxEntries) "request_limit"
    return none

/-- Check free bytes for a response. -/
def reserve (maxResponseBytes : Nat) : CacheM Unit := do
  let c ← get
  throwIf ((maxResponseBytes : Int) > c.maxBytes - c.bytes) "cache_limit"

/-- Store a successful response. -/
def store (id input : String) (output : Bytes) (now : ℚ) : CacheM Unit := modify fun c =>
  let bytes : Int := utf16Length input * 2 + output.byteLength
  { c with entries := c.entries.set id ⟨input, output, now + c.ttlMs, bytes⟩, bytes := c.bytes + bytes }

/-- Release the cache when the session ends. -/
def clear : CacheM Unit := modify fun c => { c with entries := .empty, bytes := 0 }

end RequestCache

end RosBridge.Router
