import RosBridge.Codec.Schema
import RosBridge.Lib.Binary
import RosBridge.Transport.Offers
/-!
# The negotiator

How the prepared WebRTC sources read an offer (`SessionDescription.parse` of
`webrtc/src/sdp.js`): what they keep of the direction, codec, format and mid attributes
of a media section, and of its ICE credentials as far as reading goes wrong over them. A
reading is `none` where a line makes the parser throw; what else it keeps is left out.
-/

namespace RosBridge.Transport

open Lib Session JsString RosJson

/-! ## Numbers -/

/-- The double next to a rational. -/
def double (q : ℚ) : Number :=
  match binary64.round q with
  | some r => .finite r
  | none => .infinity (q < 0)

/-- `a === b`. -/
def Number.same (a b : Number) : Bool := a ≠ .nan ∧ a = b

/-- A sign, if there is one, and what follows it. -/
def signed : JsString → Bool × JsString
  | [] => (false, [])
  | u :: rest => if u = 0x2d then (true, rest) else if u = 0x2b then (false, rest) else (false, u :: rest)

/-- The base that a `0x`, `0o` or `0b` stands for, among those that are `known`. -/
def based (known : List (UInt16 × Nat)) : JsString → Option (Nat × JsString)
  | u :: v :: rest => if u = 0x30 then (known.lookup (v ||| 0x20)).map (·, rest) else none
  | _ => none

def isDigitIn (base : Nat) (u : UInt16) : Bool := isHexDigit u ∧ ofDigits base [u] < base

/-- `Number.parseInt(text)`. -/
def parseInt (text : JsString) : Number :=
  let (negative, rest) := signed (text.dropWhile isSpace)
  let (base, rest) := (based [(0x78, 16)] rest).getD (10, rest)
  let digits := rest.takeWhile (isDigitIn base)
  if digits = [] then .nan else double (if negative then -(ofDigits base digits) else ofDigits base digits)

/-- A decimal literal without sign: digits, a fraction and an exponent. -/
def decimalLiteral (text : JsString) : Option ℚ :=
  let whole := text.takeWhile JsString.isDigit
  let rest := text.dropWhile JsString.isDigit
  let afterPoint := (after? (js ".") rest).getD []
  let fraction := afterPoint.takeWhile JsString.isDigit
  let rest := if js "." <+: rest then afterPoint.dropWhile JsString.isDigit else rest
  let value : ℚ := ofDigits 10 (whole ++ fraction) / 10 ^ fraction.length
  if whole = [] ∧ fraction = [] then none
  else
    match rest with
    | [] => some value
    | e :: exponent =>
      let (negative, digits) := signed exponent
      if (e ||| 0x20) = 0x65 ∧ digits ≠ [] ∧ digits.all JsString.isDigit then
        some (value * 10 ^ (if negative then -(ofDigits 10 digits) else ofDigits 10 digits : ℤ))
      else none

/-- `Number(text)`. -/
def number (text : JsString) : Number :=
  let text := trim text
  if text = [] then .finite 0
  else
    match based [(0x78, 16), (0x6f, 8), (0x62, 2)] text with
    | some (base, digits) => if digits ≠ [] ∧ digits.all (isDigitIn base) then double (ofDigits base digits) else .nan
    | none =>
      let (negative, rest) := signed text
      if rest = js "Infinity" then .infinity negative
      else
        match decimalLiteral rest with
        | some q => double (if negative then -q else q)
        | none => .nan

/-! ## Attributes -/

inductive Direction where
  | recvonly
  | sendonly
  | sendrecv
  | inactive
  deriving DecidableEq

/-- The text before the first separator, and the text after it: `divide(text, separator)`. -/
def divide (separator : UInt16) (text : JsString) : JsString × JsString :=
  (text.takeWhile (· ≠ separator), (text.dropWhile (· ≠ separator)).drop 1)

/-- The attribute of a line that starts with `a=`, and its value. -/
def parseAttr (line : JsString) : JsString × Option JsString :=
  if 0x3a ∈ line then
    let (attr, value) := divide 0x3a (line.drop 2)
    (attr, some value)
  else (line.drop 2, none)

/-- The lines that are read, by their attribute. -/
inductive Attribute where
  | mid (value : Option JsString)
  | direction (direction : Direction)
  | rtpmap (value : Option JsString)
  | fmtp (value : Option JsString)
  | other

def lineAttribute (line : JsString) : Attribute :=
  if ¬js "a=" <+: line then .other
  else
    let (attr, value) := parseAttr line
    if attr = js "mid" then .mid value
    else if attr = js "recvonly" then .direction .recvonly
    else if attr = js "sendonly" then .direction .sendonly
    else if attr = js "sendrecv" then .direction .sendrecv
    else if attr = js "inactive" then .direction .inactive
    else if attr = js "rtpmap" then .rtpmap value
    else if attr = js "fmtp" then .fmtp value
    else .other

/-- `/^IN (IP4|IP6) ([^ ]+)$/`. -/
def ipAddressFromSdp (text : JsString) : Option JsString :=
  match text.words ' ' with
  | [network, family, address] =>
    if network = js "IN" ∧ (family = js "IP4" ∨ family = js "IP6") ∧ address ≠ [] then some address else none
  | _ => none

/-- `!value`. -/
def missing (value : Option JsString) : Bool := value.getD [] = []

/-- Whether an attribute of a media section throws for its value. Most do so when there is none. -/
def attributeFails (attr : JsString) (value : Option JsString) : Bool :=
  if attr = js "candidate" then missing value ∨ ((value.getD []).words ' ').length < 8
  else if attr ∈ ["fingerprint", "sctpmap", "sctp-port"].map js then missing value
  else if attr = js "rtcp" then (value.bind fun value => ipAddressFromSdp (divide 0x20 value).2).isNone
  else attr ∈ ["extmap", "rtpmap", "ssrc", "ssrc-group", "rid"].map js ∧ value.isNone

/-- Whether a line under an `m=` line throws in the first pass. -/
def lineFails (line : JsString) : Bool :=
  if js "c=" <+: line then (ipAddressFromSdp (line.drop 2)).isNone
  else js "a=" <+: line ∧ attributeFails (parseAttr line).1 (parseAttr line).2

/-- Whether a line above the sections throws. -/
def sessionLineFails (line : JsString) : Bool :=
  if js "c=" <+: line then (ipAddressFromSdp (line.drop 2)).isNone
  else js "a=" <+: line ∧ (parseAttr line).1 ∈ ["group", "msid-semantic"].map js ∧ (parseAttr line).2.isNone

/-- What `.` does not match. -/
def isLineEnd (u : UInt16) : Bool := u ∈ [0x0a, 0x0d, 0x2028, 0x2029]

/-- `/^m=([^ ]+) ([0-9]+) ([A-Z/]+) (.+)/`. -/
def opensMedia (line : JsString) : Bool :=
  match after? (js "m=") line with
  | none => false
  | some text =>
    let (kind, text) := divide 0x20 text
    let (port, text) := divide 0x20 text
    let (profile, text) := divide 0x20 text
    kind ≠ [] ∧ port ≠ [] ∧ port.all JsString.isDigit ∧ profile ≠ [] ∧
      profile.all (fun u => (0x41 ≤ u && u ≤ 0x5a) || u == 0x2f) ∧ text.head?.any (!isLineEnd ·)

/-- A codec of the offer. `name` is what follows `video/` in its mime type. -/
structure OfferedCodec where
  name : JsString
  clockRate : Number
  payloadType : Number
  parameters : Option JsString
  deriving DecidableEq

/-- The codec that an `rtpmap` value describes. -/
def codecOf (value : JsString) : OfferedCodec :=
  let (formatId, formatDesc) := divide 0x20 value
  let (type, rest) := divide 0x2f formatDesc
  -- Without a clock, `undefined` is parsed.
  let clock := if 0x2f ∈ formatDesc then parseInt (divide 0x2f rest).1 else .nan
  ⟨type, clock, parseInt formatId, none⟩

/-- The payload type that a format line names, and the parameters. -/
def formatOf (value : JsString) : Number × JsString :=
  let (formatId, formatDesc) := divide 0x20 value
  (number formatId, formatDesc)

structure MediaDescription where
  muxId : Option JsString
  direction : Option Direction
  codecs : List OfferedCodec
  deriving DecidableEq

/-- The first pass over the lines. -/
def MediaDescription.readLine (media : MediaDescription) (line : JsString) : Option MediaDescription :=
  if lineFails line then none
  else
    match lineAttribute line with
    | .mid value => some { media with muxId := value }
    | .direction direction => some { media with direction := some direction }
    | .rtpmap value => some { media with codecs := media.codecs ++ (value.map codecOf).toList }
    | .fmtp _ => some media
    | .other => some media

/-- Give the parameters to the first codec of that payload type. -/
def assign (payloadType : Number) (parameters : JsString) : List OfferedCodec → Option (List OfferedCodec)
  | [] => none
  | codec :: rest =>
    if Number.same codec.payloadType payloadType then some ({ codec with parameters := some parameters } :: rest)
    else (assign payloadType parameters rest).map (codec :: ·)

/-- `a=rtcp-fb` with nothing behind it. -/
def bareFeedback (line : JsString) : Bool := js "a=" <+: line ∧ parseAttr line = (js "rtcp-fb", none)

/-- The second pass over the lines. -/
def MediaDescription.readFormat (media : MediaDescription) (line : JsString) : Option MediaDescription :=
  match lineAttribute line with
  | .fmtp none => none
  | .fmtp (some value) =>
    (assign (formatOf value).1 (formatOf value).2 media.codecs).map fun codecs => { media with codecs }
  | _ => if bareFeedback line then none else some media

/-- The reading of one media section. -/
def MediaSection.read (s : MediaSection) : Option MediaDescription :=
  if !opensMedia s.mLine then none
  else do
    let media ← s.attributes.foldlM MediaDescription.readLine ⟨none, none, []⟩
    s.attributes.foldlM MediaDescription.readFormat media

/-! ## Documents -/

structure IceParameters where
  usernameFragment : Option JsString
  password : Option JsString

def IceParameters.readLine (ice : IceParameters) (line : JsString) : IceParameters :=
  if ¬js "a=" <+: line then ice
  else if (parseAttr line).1 = js "ice-ufrag" then { ice with usernameFragment := (parseAttr line).2 }
  else if (parseAttr line).1 = js "ice-pwd" then { ice with password := (parseAttr line).2 }
  else ice

def IceParameters.complete (ice : IceParameters) : Bool := !missing ice.usernameFragment && !missing ice.password

/-- The session's own ICE parameters. -/
def Document.ice (d : Document) : IceParameters := d.session.foldl IceParameters.readLine ⟨none, none⟩

/-- The items of a group line, if it is of the bundle. -/
def bundleLine (line : JsString) : Option (List JsString) :=
  match parseAttr line with
  | (attr, some value) =>
    if js "a=" <+: line ∧ attr = js "group" ∧ (value.words ' ').head? = some (js "BUNDLE") then some (value.words ' ').tail else none
  | (_, none) => none

def Document.bundle (d : Document) : Option (List JsString) := d.session.findSome? bundleLine

/-- The parameters of the first section in the bundle that has them, among those read so far;
reading goes wrong at one that has not been read. -/
def inherit (items : List JsString) (read : List IceParameters) : List Nat → Option (Option IceParameters)
  | [] => some none
  | i :: rest =>
    if js (toString i) ∉ items then inherit items read rest
    else
      match read[i]? with
      | none => none
      | some check => if check.complete then some (some check) else inherit items read rest

/-- The ICE parameters of a section after those read so far. -/
def Document.share (d : Document) (read : List IceParameters) (muxId : Option JsString) (s : MediaSection) : Option IceParameters :=
  let own := s.attributes.foldl IceParameters.readLine d.ice
  match d.bundle with
  | none => some own
  | some items =>
    if !own.complete ∧ !missing muxId ∧ muxId.getD [] ∈ items then
      (inherit items (read ++ [own]) (List.range items.length)).map (·.getD own)
    else some own

/-- One more section. -/
def Document.readSection (d : Document) (done : List (MediaDescription × IceParameters)) (s : MediaSection) :
    Option (List (MediaDescription × IceParameters)) := do
  let media ← s.read
  let ice ← d.share (done.map Prod.snd) media.muxId s
  return done ++ [(media, ice)]

def Document.read (d : Document) : Option (List MediaDescription) :=
  if d.session.any sessionLineFails then none else (d.sections.foldlM d.readSection []).map (List.map Prod.fst)

/-- `groupLines`: a text without CRLF is split at bare newlines. -/
def groupLines (sdp : JsString) : Document :=
  if sdp.lines.length = 1 then (sdp.splitOn 0x0a).foldl Document.push ⟨[], []⟩ else document sdp

/-- `SessionDescription.parse`: what is read of the sections of an offer. -/
def negotiate (sdp : JsString) : Option (List MediaDescription) := (groupLines sdp).read

/-! ## Codecs -/

/-- Whether an offered codec is taken for the H.264 this bridge sends: names compare
case-insensitively. The sources compare nothing else; with `byClock` the clock rate has
to be that of H.264 too. -/
def OfferedCodec.isH264 (byClock : Bool) (codec : OfferedCodec) : Bool :=
  codec.name.toLower = js "h264" ∧ (byClock → codec.clockRate = .finite 90000)

/-- The codec that is stamped on packets: the first one that survives negotiation. -/
def MediaDescription.stamped (byClock : Bool) (media : MediaDescription) : Option OfferedCodec :=
  (media.codecs.filter (OfferedCodec.isH264 byClock)).head?

end RosBridge.Transport
