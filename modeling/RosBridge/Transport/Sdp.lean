import Mathlib.Algebra.Order.Ring.Rat
import Mathlib.Data.List.Infix
import RosBridge.Lib.Text
import RosBridge.Session.Validation
/-!
# Offers

`transport/sdp.ts`: the three facts that the transport reads off an offer before it
creates any state. A payload type and a message limit are the numbers their digits
write: the source turns them into doubles first, which moves no number across the
bounds it then checks.
-/

namespace RosBridge.Transport

open Lib Session JsString

structure OfferedVideo where
  payloadType : Nat
  profileLevelId : JsString
  deriving DecidableEq

structure OfferShape where
  /-- Zero means unlimited; absent when the attribute was. -/
  maxMessageBytes : Option Nat
  video : List OfferedVideo
  deriving DecidableEq

def maxLines : Nat := 2048

/-- A media section: its `m=` line and the lines under it. -/
structure MediaSection where
  mLine : JsString
  attributes : List JsString
  deriving DecidableEq

def MediaSection.lines (s : MediaSection) : List JsString := s.mLine :: s.attributes

structure Document where
  session : List JsString
  sections : List MediaSection

/-- Push a line: it opens a section, or goes to the last one. -/
def Document.push (d : Document) (line : JsString) : Document :=
  if js "m=" <+: line then { d with sections := d.sections ++ [⟨line, []⟩] }
  else
    match d.sections.getLast? with
    | none => { d with session := d.session ++ [line] }
    | some last =>
      { d with sections := d.sections.dropLast ++ [{ last with attributes := last.attributes ++ [line] }] }

/-- The session and the sections of a text. -/
def document (sdp : JsString) : Document := sdp.lines.foldl Document.push ⟨[], []⟩

/-- Split an SDP document into its session part and media sections. -/
def split (sdp : JsString) : Except String Document :=
  if sdp.lines.length > maxLines then .error "invalid_offer" else .ok (document sdp)

/-- `/^a=mid:\s*$/`. -/
def emptyMid (line : JsString) : Bool :=
  match after? (js "a=mid:") line with
  | some rest => rest.all isSpace
  | none => false

/-- `/^a=rtpmap:(\d+) H264\/90000$/`, and the digits it captures. -/
def rtpmap (line : JsString) : Option JsString :=
  match after? (js "a=rtpmap:") line with
  | some rest =>
    let digits := rest.takeWhile JsString.isDigit
    if digits ≠ [] ∧ rest.dropWhile JsString.isDigit = js " H264/90000" then some digits else none
  | none => none

/-- What a format line of a payload type starts with. -/
def fmtpPrefix (payloadType : Nat) : JsString := js "a=fmtp:" ++ js (toString payloadType) ++ js " "

/-- The parameters of a format line, after its prefix. -/
def parameters (text : JsString) : List JsString := (text.words ';').map trim

/-- `/^profile-level-id=[0-9A-Fa-f]{6}$/`, and the digits. -/
def profileParameter (parameter : JsString) : Option JsString :=
  match after? (js "profile-level-id=") parameter with
  | some digits => if digits.length = 6 ∧ digits.all isHexDigit then some digits else none
  | none => none

/-- The loop of `videoSlot`: the first H.264 payload decides, whatever follows it. -/
def firstH264 (lines : List JsString) : List JsString → Except String OfferedVideo
  | [] => .error "unsupported_video_codec"
  | line :: rest =>
    match rtpmap line with
    | none => firstH264 lines rest
    | some digits =>
      let payloadType := ofDigits 10 digits
      if payloadType > 127 then .error "unsupported_video_codec"
      else
        match lines.findSome? (after? (fmtpPrefix payloadType)) with
        | none => .error "unsupported_video_codec"
        | some fmtp =>
          if js "packetization-mode=1" ∉ parameters fmtp then .error "unsupported_video_codec"
          else
            match (parameters fmtp).findSome? profileParameter with
            | none => .error "unsupported_video_codec"
            | some profile => .ok ⟨payloadType, profile.toLower⟩

/-- Find the payload type that can carry the H.264 profile this bridge produces. -/
def videoSlot (lines : List JsString) : Except String OfferedVideo :=
  if js "a=recvonly" ∉ lines then .error "invalid_video_section"
  else if ∃ line ∈ lines, js "a=simulcast:" <+: line ∨ js "a=rid:" <+: line then .error "invalid_video_section"
  else if lines.any emptyMid then .error "invalid_video_section"
  else firstH264 lines lines

/-- Recognise the DataChannel media section. -/
def datachannelSection (line : JsString) : Bool :=
  match line.words ' ' with
  | [media, _, protocol, format] =>
    media = js "m=application" ∧ js "DTLS/SCTP" <:+: protocol ∧ format = js "webrtc-datachannel"
  | _ => false

/-- `/^a=max-message-size:\d+$/`, and the digits. -/
def messageLimit (line : JsString) : Option JsString :=
  match after? (js "a=max-message-size:") line with
  | some digits => if digits ≠ [] ∧ digits.all JsString.isDigit then some digits else none
  | none => none

def Document.application (d : Document) : List MediaSection := d.sections.filter fun s => datachannelSection s.mLine

def Document.video (d : Document) : List MediaSection := d.sections.filter fun s => js "m=video " <+: s.mLine

/-- The message limit that the session and one section advertise. -/
def advertised (lines : List JsString) : Except String (Option Nat) :=
  match lines.filterMap messageLimit with
  | [] => .ok none
  | [digits] => if ofDigits 10 digits ≤ maxSafeInteger then .ok (some (ofDigits 10 digits)) else .error "invalid_message_limit"
  | _ => .error "invalid_message_limit"

/-- Validate an offer and reduce it to the facts the transport acts on. `maxVideo` is
any finite number. -/
def parseOffer (sdp : JsString) (maxVideo : ℚ) : Except String OfferShape := do
  let d ← split sdp
  match d.application with
  | [application] =>
    if 1 + d.video.length ≠ d.sections.length then .error "datachannel_only"
    else if (d.video.length : ℚ) > maxVideo then .error (if maxVideo = 0 then "datachannel_only" else "video_slot_limit")
    else do
      let maxMessageBytes ← advertised (d.session ++ application.lines)
      let video ← d.video.mapM fun s => videoSlot s.lines
      return ⟨maxMessageBytes, video⟩
  | _ => .error "datachannel_only"

end RosBridge.Transport
