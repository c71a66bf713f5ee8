import RosBridge.Ros.NativeTrees
/-!
# Round trips through ROS

`from` after `to` of `rosRepresentation` is `decode` after `encode`, but for messages with
a byte array of more than 32767 bytes: the codec that checks its numbers counts nodes up
to its own default (`round_trips_native_iff`). The form of a 64-bit integer makes no
difference to `from`.
-/

namespace RosBridge.RosJson

open Lib Prog Session

/-- The same message, but for the forms of its 64-bit integers. -/
inductive SameMessage : Field → Value → Value → Prop
  | integer (signed : Bool) (z : ℤ) (value value' : Value) (delivered : Delivered z value) (delivered' : Delivered z value') :
      SameMessage (.integer 64 signed) value value'
  | same (field : Field) (value : Value) : SameMessage field value value
  | array (bounds : LengthBounds) (element : Field) (plain : Bool) (items items' : List Value)
      (length : items.length = items'.length)
      (elements : ∀ (n : Nat) v v', items[n]? = some v → items'[n]? = some v' → SameMessage element v v') :
      SameMessage (.array bounds element) (.array plain items) (.array plain items')
  | object (fields : List (JsString × Field)) (plain : Bool) (properties properties' : List (JsString × Value))
      (names : properties.map (·.1) = properties'.map (·.1))
      (members : ∀ p ∈ fields, ∀ v v', properties.lookup p.1 = some v → properties'.lookup p.1 = some v' →
        SameMessage p.2 v v') :
      SameMessage (.object fields) (.object plain properties) (.object plain properties')

theorem SameMessage.symm {field : Field} {value value' : Value} (h : SameMessage field value value') :
    SameMessage field value' value := by
  induction h with
  | integer signed z value value' delivered delivered' => exact .integer signed z value' value delivered' delivered
  | same field value => exact .same field value
  | array bounds element plain items items' length elements ih =>
    exact .array bounds element plain items' items length.symm fun n v v' hv hv' => ih n v' v hv' hv
  | object fields plain properties properties' names members ih =>
    exact .object fields plain properties' properties names.symm fun p hp v v' hv hv' => ih p hp v' v hv' hv

/-! ## Which form is delivered -/

section Forms

variable {options : CodecOptions}

theorem forall₂_of_getElem? {α β : Type} {R : α → β → Prop} {xs : List α} {ys : List β} (length : xs.length = ys.length)
    (each : ∀ (n : Nat) x y, xs[n]? = some x → ys[n]? = some y → R x y) : List.Forall₂ R xs ys := by
  rw [List.forall₂_iff_get]
  refine ⟨length, fun n hx hy => each n _ _ ?_ ?_⟩
  · exact List.getElem?_eq_getElem hx
  · exact List.getElem?_eq_getElem hy

/-- Entries of the same keys. -/
theorem forall₂_entries {properties properties' : List (JsString × Value)} {R : JsString × Value → JsString × Value → Prop}
    (names : properties.map (·.1) = properties'.map (·.1))
    (each : ∀ name v v', properties.lookup name = some v → properties'.lookup name = some v' → R (name, v) (name, v')) :
    List.Forall₂ R (entries properties) (entries properties') := by
  have same : keys properties = keys properties' := by rw [keys, keys, names]
  rw [entries_eq, entries_eq, same, List.forall₂_map_left_iff, List.forall₂_map_right_iff, List.forall₂_same]
  intro name h
  obtain ⟨v', hv'⟩ := mem_keys.1 h
  obtain ⟨v, hv⟩ := mem_keys.1 (same ▸ h)
  rw [hv, hv']
  exact each name v v' hv hv'

/-- Entries keep their names. -/
theorem names_of_mapM {g : JsString → Value → Visit Value} {es rs : List (JsString × Value)} {s s' : Nat}
    (ran : (es.mapM fun e : JsString × Value => do return (e.1, ← g e.1 e.2)).exec s = (.ok rs, s')) : rs.map (·.1) = es.map (·.1) := by
  induction es generalizing s rs with
  | nil =>
    cases ran
    rfl
  | cons e es ih =>
    rw [List.mapM_cons] at ran
    obtain ⟨r, t, first, ran⟩ := of_exec_bind ran
    obtain ⟨rest, t', others, ran⟩ := of_exec_bind ran
    obtain ⟨v, t'', -, first⟩ := of_exec_bind first
    cases ran
    cases first
    rw [List.map_cons, List.map_cons, ih others]

/-- Whatever form a 64-bit integer has, a value that can be encoded is made of the same
message. -/
theorem represent_same {field : Field} {value value' : Value} (same : SameMessage field value value') (distinct : field.Distinct) :
    Covers (Typed options true field) (represent options true field value) (represent options true field value') := by
  induction same with
  | integer signed z value value' delivered delivered' =>
    rw [represent, represent]
    refine .andThen fun _ s result s' ran typed => ?_
    rw [if_pos ⟨rfl, rfl⟩] at ran ⊢
    -- The result has passed the check of its range.
    cases accepted : nativeInteger signed value with
    | error e =>
      rw [accepted] at ran
      cases ran
    | ok v =>
      rw [accepted] at ran
      cases ran
      obtain rfl := eq_bigint_of_nativeInteger delivered accepted
      have range : InRange 64 signed z := by
        cases typed
        assumption
      rw [nativeInteger_of_range delivered' range]
      rfl
  | same field value => exact .refl
  | array bounds element plain items items' length elements ih =>
    have items := Covers.mapM (forall₂_of_getElem? length fun n v v' hv hv' => ih n v v' hv hv' distinct)
    rw [represent, represent]
    refine .andThen fun _ => ?_
    rw [length]
    refine .andThen fun _ => .andThen fun _ => items.map fun vs typed => ?_
    cases typed with
    | array _ _ _ _ elements => exact elements
  | object fields plain properties properties' names members ih =>
    obtain ⟨nodup, distinct⟩ := distinct
    -- Only entries of known names are left in a value that can be encoded.
    have each : List.Forall₂ (fun e e' => Covers (fun r : JsString × Value => ∃ p ∈ fields, p.1 = r.1 ∧ Typed options true p.2 r.2)
        (do return (e.1, ← representMember options true fields e.1 e.2))
        (do return (e'.1, ← representMember options true fields e'.1 e'.2))) (entries properties) (entries properties') := by
      refine forall₂_entries names fun name v v' hv hv' s r s' ran good => ?_
      obtain ⟨p, hp, named, typed⟩ := good
      obtain ⟨w, t, first, rest⟩ := of_exec_bind ran
      cases rest
      obtain rfl : p.1 = name := named
      rw [representMember_of_mem nodup hp] at first ⊢
      rw [exec_bind_ok (ih p hp v v' hv hv' (distinct_of_mem distinct p hp) s w _ first typed)]
      rfl
    rw [represent, represent]
    refine .andThen fun _ s result s' ran typed => ?_
    obtain ⟨ps, t, read, ran⟩ := of_exec_bind ran
    obtain ⟨rs, t', mapped, ran⟩ := of_exec_bind ran
    cases ran
    have nodup' : (rs.map (·.1)).Nodup := by
      rw [names_of_mapM mapped, entries_eq, List.map_map]
      exact (List.map_id _).symm ▸ List.nodup_dedup _
    have good : ∀ r ∈ rs, ∃ p ∈ fields, p.1 = r.1 ∧ Typed options true p.2 r.2 := by
      intro r hr
      have found := lookup_of_nodup nodup' r hr
      cases typed with
      | object _ _ known typed =>
        obtain ⟨p, hp, named⟩ := List.mem_map.1 ((known r.1).1 (mem_keys.2 ⟨r.2, found⟩))
        exact ⟨p, hp, named, typed p hp r.2 (named ▸ found)⟩
    cases plain with
    | false => cases read
    | true =>
      cases read
      have read' : (record (.object true properties')).exec s = (.ok properties', s) := rfl
      rw [exec_bind_ok read', exec_bind_ok (Covers.mapM each s rs _ mapped good)]
      rfl

end Forms

section Messages

variable {descriptor : Field} {overrides : Overrides} {representation : Representation}

theorem representation_created (made : rosRepresentation descriptor overrides = .ok representation) :
    representation.descriptor = descriptor ∧ createCodec descriptor overrides = .ok representation.codec := by
  unfold rosRepresentation at made
  cases created : createCodec descriptor overrides with
  | error e =>
    rw [created] at made
    cases made
  | ok codec =>
    rw [created] at made
    cases made
    exact ⟨rfl, rfl⟩

/-- A message is accepted in one form as in another, with the same result. -/
theorem fromRos_same {message message' result : Value} (made : rosRepresentation descriptor overrides = .ok representation)
    (same : SameMessage descriptor message message') (accepted : representation.fromRos message = .ok result) :
    representation.fromRos message' = .ok result := by
  obtain ⟨rfl, created⟩ := representation_created made
  obtain ⟨schema, distinct, -⟩ := created_spec created
  unfold Representation.fromRos Representation.convert at accepted ⊢
  cases ran : (represent representation.codec.options true representation.descriptor message).exec 0 with
  | mk outcome c =>
  rw [ran] at accepted
  cases outcome with
  | error e => cases accepted
  | ok value =>
    change (representation.codec.encode value >>= representation.codec.decode) = _ at accepted
    cases encoded : representation.codec.encode value with
    | error e =>
      rw [encoded] at accepted
      cases accepted
    | ok wire =>
      obtain ⟨⟨typed, -⟩, -⟩ := (convert_eq_ok_iff (schema ▸ distinct)).1 encoded
      rw [represent_same same distinct 0 value c ran (schema ▸ typed)]
      change (representation.codec.encode value >>= representation.codec.decode) = _
      exact accepted

/-- Bytes are not rounded. -/
theorem longest_of_rounded {field : Field} {value value' : Value} (rounded : Rounded field value value')
    (distinct : field.Distinct) : longest field value' = longest field value := by
  induction rounded with
  | float32 | leaf => rfl
  | array bounds element items items' length elements ih =>
    rw [longest, longest]
    congr 1
    refine List.ext_getElem? fun n => ?_
    rw [List.getElem?_map, List.getElem?_map]
    cases hv : items[n]? with
    | none =>
      rw [List.getElem?_eq_none_iff] at hv
      rw [List.getElem?_eq_none_iff.2 (length ▸ hv)]
    | some v =>
      obtain ⟨inside, -⟩ := List.getElem?_eq_some_iff.1 hv
      have hv' := List.getElem?_eq_getElem (length ▸ inside)
      rw [hv', Option.map_some, Option.map_some, ih n v _ hv hv' distinct]
  | object fields properties properties' names names' members ih =>
    obtain ⟨-, distinct⟩ := distinct
    rw [longest, longest, longestFields_eq, longestFields_eq]
    refine congrArg (List.foldr max 0) (List.map_congr_left fun p hp => ?_)
    obtain ⟨v, hv⟩ := mem_keys.1 ((names p.1).2 (List.mem_map_of_mem hp))
    obtain ⟨v', hv'⟩ := mem_keys.1 ((names' p.1).2 (List.mem_map_of_mem hp))
    rw [hv, hv']
    exact ih p hp v v' hv hv' (distinct_of_mem distinct p hp)

/-- A message that can be encoded comes back from ROS as it would from the wire exactly when
none of its byte arrays has more than 32767 bytes. The form of its integers makes no
difference. -/
theorem round_trips_native_iff (made : rosRepresentation descriptor overrides = .ok representation) {native wire : Value}
    (encoded : representation.codec.encode native = .ok wire) :
    ((∃ message value, representation.toRos native = .ok message ∧ representation.fromRos message = .ok value ∧
        representation.codec.decode wire = .ok value) ↔ longest descriptor native ≤ 32767) ∧
      ∀ message message', SameMessage descriptor message message' → ∀ value,
        representation.fromRos message = .ok value ↔ representation.fromRos message' = .ok value := by
  refine ⟨?_, fun message message' same value => ⟨fromRos_same made same, fromRos_same made same.symm⟩⟩
  obtain ⟨rfl, created⟩ := representation_created made
  obtain ⟨schema, distinct, -⟩ := created_spec created
  have distinct' : representation.codec.schema.Distinct := schema ▸ distinct
  obtain ⟨decoded, rounds, -⟩ := convert_back distinct' encoded
  generalize converted (!true) representation.codec.schema wire = value at decoded rounds
  have decoded : representation.codec.decode wire = .ok value := decoded
  have same := longest_of_rounded (schema ▸ rounds) distinct
  obtain ⟨comes, stays⟩ := @convert_of_decoded _ _ _ _ _ true created decoded
  -- Towards ROS nothing is refused.
  have sent : representation.toRos native = .ok (plain value) := by
    unfold Representation.toRos
    rw [encoded]
    change (representation.codec.decode wire >>= fun v => representation.convert v false) = _
    rw [decoded]
    refine (convert_of_decoded created decoded).1 fun h => ?_
    cases h
  constructor
  · rintro ⟨message, value', sent', back, -⟩
    obtain rfl : plain value = message := Except.ok.inj (sent.symm.trans sent')
    by_contra long
    obtain ⟨e, failed⟩ := stays fun h => long (same ▸ h rfl)
    have failed : representation.convert (plain value) true = .error e := failed
    unfold Representation.fromRos at back
    rw [failed] at back
    cases back
  · intro short
    obtain ⟨again, first, second⟩ := decoded_again distinct' decoded
    have returned : representation.convert (plain value) true = .ok value := comes fun _ => same.symm ▸ short
    refine ⟨plain value, value, sent, ?_, decoded⟩
    unfold Representation.fromRos
    rw [returned]
    change (representation.codec.encode value >>= representation.codec.decode) = _
    rw [first]
    exact second

end Messages

theorem round_trips_native_waypoint : ∃ message value, Representation.toRos ⟨waypoint, waypointCodec⟩ nativeWaypoint = .ok message ∧
    Representation.fromRos ⟨waypoint, waypointCodec⟩ message = .ok value ∧ waypointCodec.decode wireWaypoint = .ok value := by
  have made : rosRepresentation waypoint {} = .ok ⟨waypoint, waypointCodec⟩ := rfl
  have encoded : waypointCodec.encode nativeWaypoint = .ok wireWaypoint := rfl
  exact (round_trips_native_iff made encoded).1.2 (by decide)

/-- A type of byte arrays of any length that the options allow. -/
def blob : Field := .bytes ⟨none, none⟩

def blobRepresentation : Representation := ⟨blob, ⟨blob, ⟨32, 4096, 16384, 32768, 32768, true⟩⟩⟩

/-- With byte arrays of up to 32768 bytes allowed, the longest is sent and not read back. -/
theorem native_round_trip_fails : ¬∀ (descriptor : Field) (overrides : Overrides) (representation : Representation),
    rosRepresentation descriptor overrides = .ok representation →
    ∀ native wire, representation.codec.encode native = .ok wire →
    ∃ message value, representation.toRos native = .ok message ∧ representation.fromRos message = .ok value ∧
      representation.codec.decode wire = .ok value := by
  intro claim
  have made : rosRepresentation blob { maxByteLength := some (some 32768) } = .ok blobRepresentation := rfl
  have distinct : blobRepresentation.codec.schema.Distinct := trivial
  have typed : Typed blobRepresentation.codec.options true blob (.bytes (List.replicate 32768 0)) :=
    .nativeBytes rfl _ _ ⟨List.length_replicate.le, (fun _ h => by cases h), (fun _ h => by cases h)⟩
  have encoded : blobRepresentation.codec.encode (.bytes (List.replicate 32768 0)) = .ok _ :=
    (convert_eq_ok_iff distinct).2 ⟨⟨typed, Nat.zero_le _, show 0 + 1 ≤ 32768 by decide⟩, rfl⟩
  have short := (round_trips_native_iff made encoded).1.1 (claim _ _ _ made _ _ encoded)
  rw [blob, longest, List.length_replicate] at short
  exact absurd short (by decide)

end RosBridge.RosJson
