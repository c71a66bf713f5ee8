import RosBridge.Config.Bridge
import RosBridge.Router.Runs
/-!
# The registry of an application

`createRegistry`, and the options that `makeRouter` passes to a session (`app/registry.ts`,
`app/runtime.ts`). What the installed ROS types make of a binding, its codec and the
digest of its schema, is an argument.
-/

namespace RosBridge.App

open Lib Session Config Router

variable {η : Type}

/-- `digest('hex')`. -/
def hexDigest (digest : List UInt8) : String := String.join (digest.map fun byte => Json.hex byte.toNat)

/-- Resolve every native type and create codecs and hashes. -/
def createRegistry (describe : TopicBinding → Except String (Codec η × List UInt8)) (config : BridgeConfig) :
    Except String (List (RouterBinding η)) :=
  config.topics.mapM fun binding => do
    let (codec, digest) ← describe binding
    return ⟨binding, codec, "sha256:" ++ hexDigest digest⟩

/-- `settings.routerLimits`. -/
structure RouterLimits where
  maxHandles : Session.Num
  maxRequests : Session.Num
  requestTtlMs : Session.Num
  maxControlRateHz : Session.Num

/-- What a session is built from. `maxMessageBytes` is what the negotiation left. -/
def makeRouter (config : BridgeConfig) (registry : List (RouterBinding η)) (limits : RouterLimits) (maxMessageBytes : Nat)
    (epoch : String) (slots : Option (List VideoSlot)) : RouterOptions η where
  topics := config.topics
  maxMessageBytes := maxMessageBytes
  maxPeerQueueBytes := config.limits.maxPeerQueueBytes
  bindings := registry
  epoch := epoch
  maxHandles := limits.maxHandles
  maxRequests := limits.maxRequests
  requestTtlMs := limits.requestTtlMs
  maxControlRateHz := limits.maxControlRateHz
  slots := slots

/-- `randomUUID()`, from the sixteen bytes it shows. -/
def randomUUID (bytes : List UInt8) : String :=
  "-".intercalate [hexDigest (bytes.take 4), hexDigest ((bytes.drop 4).take 2), hexDigest ((bytes.drop 6).take 2),
    hexDigest ((bytes.drop 8).take 2), hexDigest ((bytes.drop 10).take 6)]

end RosBridge.App
