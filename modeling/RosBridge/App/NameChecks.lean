import RosBridge.App.Catalog
import RosBridge.Config.Video
import RosBridge.Lib.RegexLanguage
/-!
# The checks of names

The configuration and the guard write the pattern of a ROS name in different ways, for
the same names, and all of them are identifiers of the wire. The name of a track is one
when it is not too long: its pattern sets no limit (`names_agree_iff`).
-/

namespace RosBridge.App

open Lib Session Router
open Config hiding string

/-! ## Topics -/

/-- Segments after a slash, or before one and a last segment: `(ab)*` with the separator
moved. -/
theorem patterns_agree (s : String) : topicNamePattern.accepts s = CommandGuard.topicPattern.accepts s := by
  have same : topicNamePattern.language = CommandGuard.topicPattern.language := by
    unfold topicNamePattern CommandGuard.topicPattern Regex.plus
    have slide := Regex.language_slide nameSegment (.lit '/')
    simp only [Regex.language, mul_assoc] at slide ⊢
    rw [slide]
  rw [Bool.eq_iff_iff, Regex.accepts_iff_mem, Regex.accepts_iff_mem, same]

theorem string_eq_ok {s path name : String} {pattern : Regex} :
    Config.string (some (.string s)) pattern path = .ok name ↔ name = s ∧ pattern.accepts s = true := by
  have here : Config.string (some (.string s)) pattern path =
    if pattern.accepts s then .ok s else .error ⟨path, "invalid string"⟩ := rfl
  rw [here]
  split
  · next accepted => simp [accepted, eq_comm]
  · next refused => simp [refused]

/-- What the configuration accepts as the name of a topic. -/
theorem topicName_eq_ok {s path name : String} :
    topicName (some (.string s)) path = .ok name ↔ name = s ∧ topicNamePattern.accepts s = true ∧ s.length ≤ 247 := by
  unfold topicName
  constructor
  · intro parsed
    obtain ⟨checked, first, h⟩ := exists_of_bind parsed
    obtain ⟨rfl, accepted⟩ := string_eq_ok.1 first
    revert h
    dsimp only
    split
    · intro h
      cases h
    · next short => exact fun h => ⟨(Except.ok.inj h).symm, accepted, not_lt.1 short⟩
  · rintro ⟨rfl, accepted, short⟩
    rw [string_eq_ok.2 ⟨rfl, accepted⟩]
    exact if_neg (not_lt.2 short)

/-- The topic check of `openHandle`, which has an open guard, a session and a lease. -/
theorem openHandle_accepts_iff {g : CommandGuard} {sessionId topic epoch : String} {leaseMs : Option Session.Num} {n : Nat}
    (isOpen : g.closed = false) (lease : positiveLimit (leaseMs.getD (some g.options.leaseMs)) = some n)
    (session : g.sessions.get? sessionId = some epoch) :
    (∃ identity, ((CommandGuard.openHandleBegin sessionId topic leaseMs).exec g).1 = .ok identity) ↔
      CommandGuard.topicPattern.accepts topic = true ∧ topic.length ≤ 247 := by
  have spec : Prog.wp (CommandGuard.openHandleBegin sessionId topic leaseMs)
      (fun _ _ => CommandGuard.topicPattern.accepts topic = true ∧ topic.length ≤ 247)
      (fun _ _ => ¬(CommandGuard.topicPattern.accepts topic = true ∧ topic.length ≤ 247)) g := by
    simp only [CommandGuard.openHandleBegin, CommandGuard.assertOpen, CommandGuard.issueId, Prog.wp_bind, Prog.wp_get, isOpen,
      lease, session, Prog.wp_ite, Prog.wp_throw, Prog.wp_pure, Prog.wp_modify]
    simp
    intro refused accepted
    simpa [accepted] using refused
  constructor
  · rintro ⟨identity, accepted⟩
    have passes := Prog.of_wp_ok spec (Prog.exec_of_fst accepted)
    exact passes
  · intro passes
    obtain ⟨identity, g', -, ran⟩ | ⟨e, g', refused, -⟩ := Prog.exec_cases spec
    · exact ⟨identity, by rw [ran]⟩
    · exact absurd passes refused

/-! ## Identifiers of the wire -/

/-- Names are printable. -/
theorem identifier_of_within {r : Regex} (within : r.Within NameChar) {s : String} (accepted : r.accepts s = true)
    (short : 1 ≤ s.length ∧ s.length ≤ 256) : identifier s = true := by
  unfold identifier
  simp only [Bool.and_eq_true, List.all_eq_true, decide_eq_true_eq]
  refine ⟨⟨fun c mem => ?_, short.1⟩, short.2⟩
  have range := (within.of_accepts accepted c mem).range
  omega

theorem length_of_accepts {r : Regex} (filled : r.nullable = false) {s : String} (accepted : r.accepts s = true) : 1 ≤ s.length := by
  rw [← String.length_toList]
  cases letters : s.toList with
  | nil =>
    unfold Regex.accepts at accepted
    rw [letters, List.foldl_nil, filled] at accepted
    cases accepted
  | cons c cs => exact Nat.succ_le_succ (Nat.zero_le _)

theorem topicName_identifier {s path name : String} (h : topicName (some (.string s)) path = .ok name) : identifier s = true := by
  obtain ⟨rfl, accepted, short⟩ := topicName_eq_ok.1 h
  have slash : (Regex.lit '/').Within NameChar := fun c h => .inl (eq_of_beq h)
  have within : topicNamePattern.Within NameChar := ⟨⟨slash, nameSegment_within⟩, slash, nameSegment_within⟩
  exact identifier_of_within within accepted ⟨length_of_accepts rfl accepted, by omega⟩

/-- The name of a track is an identifier unless it is too long. -/
theorem track_identifier_iff {s : String} (accepted : trackPattern.accepts s = true) : identifier s = true ↔ s.length ≤ 256 := by
  have word : ∀ c : Char, (c.isAlphanum || c == '_') = true → NameChar c := by
    intro c h
    rcases Bool.or_eq_true_iff.1 h with h | h
    · exact .inr (.inl h)
    · exact .inr (.inr (eq_of_beq h))
  have within : trackPattern.Within NameChar := ⟨fun c h => .inr (.inl (by simp [Char.isAlphanum, h])), word⟩
  constructor
  · intro valid
    simp only [identifier, Bool.and_eq_true, decide_eq_true_eq] at valid
    exact valid.2
  · exact fun short => identifier_of_within within accepted ⟨length_of_accepts rfl accepted, short⟩

/-! ## Tracks -/

theorem videoBinding_name (name : String) (value : Option Json) (limits : VideoLimits) :
    Yields (fun track => trackPattern.accepts track.name = true) (videoBinding name value limits) := by
  unfold videoBinding
  refine .bind fun checked named => .bind fun map _ => .bind fun rosTopic _ => .bind fun rosType _ => .bind fun qos _ => ?_
  refine .dite (fun _ => ?_) fun _ => .throw _
  refine .bind fun access _ => .bind fun input _ => .bind fun output _ => ?_
  refine .dite (fun _ => ?_) fun _ => .throw _
  exact .bind fun encoder _ => .bind fun scope _ => .pure (string_accepts named)

theorem videoBindings_names (value : Option Json) (limits : VideoLimits) :
    Yields (fun tracks => ∀ track ∈ tracks, trackPattern.accepts track.name = true) (videoBindings value limits) := by
  unfold videoBindings
  refine .bind fun entries _ => .ite (fun _ => .bind fun _ h => by cases h) fun _ => ?_
  refine .bind fun tracks read => .bind fun _ _ => .pure fun track mem => ?_
  obtain ⟨e, -, checked⟩ := exists_of_mem_right (forall₂_of_mapM read) mem
  exact videoBinding_name e.1 (some e.2) limits track checked

/-- The tracks of an accepted document. -/
theorem video_names (yaml : String → Option Json) (source : String) (topics : List TopicBinding) (maxBytes : Nat) :
    Yields (fun config => ∀ video, config = some video → ∀ track ∈ video.tracks, trackPattern.accepts track.name = true)
      (parseVideoConfig yaml source topics maxBytes) := by
  unfold parseVideoConfig
  refine .bind fun document _ => .bind fun map _ => .bind fun bounds _ => ?_
  split
  · exact .pure fun video h => by cases h
  · refine .bind fun limits _ => .bind fun tracks read => ?_
    split
    · exact .throw _
    · refine .bind fun settings _ => .pure fun video h track mem => ?_
      obtain rfl := Option.some.inj h
      exact videoBindings_names _ limits tracks read track mem
  · exact .throw _

/-- The names of topics are checked alike and are identifiers. Those of tracks are
identifiers exactly when none has more than 256 characters. -/
theorem names_agree_iff {yaml : String → Option Json} {source : String} {topics : List TopicBinding} {maxBytes : Nat}
    {config : VideoConfig} (parsed : parseVideoConfig yaml source topics maxBytes = .ok (some config)) :
    ((∀ track ∈ config.tracks, identifier track.name = true) ↔ ∀ track ∈ config.tracks, track.name.length ≤ 256) ∧
    ∀ s path : String, ((∃ name, topicName (some (.string s)) path = .ok name) → identifier s = true) ∧
      ∀ (g : CommandGuard) (sessionId epoch : String) (leaseMs : Option Session.Num) (n : Nat), g.closed = false →
        positiveLimit (leaseMs.getD (some g.options.leaseMs)) = some n → g.sessions.get? sessionId = some epoch →
        ((∃ identity, ((CommandGuard.openHandleBegin sessionId s leaseMs).exec g).1 = .ok identity) ↔
          ∃ name, topicName (some (.string s)) path = .ok name) := by
  have named := video_names yaml source topics maxBytes _ parsed config rfl
  refine ⟨forall₂_congr fun track mem => track_identifier_iff (named track mem), fun s path => ⟨?_, ?_⟩⟩
  · rintro ⟨name, accepted⟩
    exact topicName_identifier accepted
  · intro g sessionId epoch leaseMs n isOpen lease session
    rw [openHandle_accepts_iff isOpen lease session, ← patterns_agree]
    simp only [topicName_eq_ok, exists_eq_left]

/-- A camera. -/
def cameraTrack : Json := .object [
  ("ros_topic", .string "/camera"), ("ros_type", .string "sensor_msgs/msg/Image"),
  ("ros_qos", .object [("reliability", .string "best_effort"), ("durability", .string "volatile"), ("history", .string "keep_last"),
    ("depth", .number (some 1))]),
  ("input", .object [("encoding", .string "rgb8"), ("width", .number (some 1280)), ("height", .number (some 720)),
    ("framerate", .number (some 30))]),
  ("encoder", .object [("codec", .string "h264"), ("backend", .string "l4t_v4l2"), ("bitrate", .number (some 4000000)),
    ("keyframe_interval", .number (some 30)), ("profile", .string "constrained_baseline")]),
  ("access", stringsOf [("subscribe_scope", "video.front")])]

def cameraDocument (name : String) : Json := .object [
  ("limits", .object [("video", numbersOf [("max_tracks", 6), ("max_pipelines", 5), ("max_slots_per_peer", 2), ("max_width", 1920),
    ("max_height", 1080), ("max_framerate", 60)])]),
  ("video", numbersOf [("start_timeout_ms", 5000), ("stop_grace_ms", 5000), ("retry_min_interval_ms", 1000),
    ("pli_min_interval_ms", 200)]),
  ("video_tracks", .object [(name, cameraTrack)])]

def cameraLimits : VideoLimits := ⟨6, 5, 2, 1920, 1080, 60, by decide⟩

def cameraBinding (name : String) : VideoBinding :=
  ⟨name, "/camera", "sensor_msgs/msg/Image", ⟨.bestEffort, .volatile, 1⟩, ⟨.rgb8, 1280, 720, 30⟩, none,
    ⟨.l4tV4l2, 4000000, 30, .constrainedBaseline, by decide, by decide⟩, "video.front", rfl, by decide⟩

section Camera

variable {name : String}

/-- A camera is accepted under every name of the pattern. -/
theorem camera_checked (accepted : trackPattern.accepts name = true) :
    videoBinding name (some cameraTrack) cameraLimits = .ok (cameraBinding name) := by
  have named : ∀ path, Config.string (some (.string name)) trackPattern path = .ok name :=
    fun path => string_eq_ok.2 ⟨rfl, accepted⟩
  unfold videoBinding
  change (Config.string (some (.string name)) trackPattern ("video_tracks." ++ name) >>= _) = _
  rw [named]
  rfl

theorem camera_parsed (accepted : trackPattern.accepts name = true) :
    parseVideoConfig (fun _ => some (cameraDocument name)) "" [] 1048576 =
      .ok (some ⟨⟨5000, 5000, 1000, 200⟩, cameraLimits, [cameraBinding name]⟩) := by
  have tracks : videoBindings (some (.object [(name, cameraTrack)])) cameraLimits = .ok [cameraBinding name] := by
    have entries : record (some (.object [(name, cameraTrack)])) none "video_tracks" = .ok [(name, cameraTrack)] := rfl
    unfold videoBindings
    rw [entries]
    change ((videoBinding name (some cameraTrack) cameraLimits >>= fun track => pure [track]) >>= _) = _
    rw [camera_checked accepted]
    rfl
  unfold parseVideoConfig
  change (videoBindings (some (.object [(name, cameraTrack)])) cameraLimits >>= _) = _
  rw [tracks]
  rfl

end Camera

theorem names_agree_front : identifier (cameraBinding "front").name = true :=
  (names_agree_iff (camera_parsed (by decide +kernel))).1.2 (by decide +kernel) _ List.mem_cons_self

theorem trackPattern_letters (n : Nat) : trackPattern.accepts (String.ofList (List.replicate (n + 1) 'a')) = true := by
  rw [Regex.accepts_iff_mem, String.toList_ofList]
  refine ⟨['a'], ⟨'a', rfl, rfl⟩, List.replicate n 'a', ?_, rfl⟩
  refine Language.mem_kstar.2 ⟨List.replicate n ['a'], List.flatten_replicate_singleton.symm, fun y mem => ?_⟩
  exact ⟨'a', rfl, List.eq_of_mem_replicate mem⟩

/-- A name of 257 letters is listed in a welcome and refused in a request. -/
theorem track_name_refused : ¬∀ (yaml : String → Option Json) (source : String) (topics : List TopicBinding) (maxBytes : Nat)
    (config : VideoConfig), parseVideoConfig yaml source topics maxBytes = .ok (some config) →
    ∀ track ∈ config.tracks, identifier track.name = true := by
  intro claim
  have parsed := camera_parsed (trackPattern_letters 256)
  have short := (names_agree_iff parsed).1.1 (claim _ _ _ _ _ parsed) _ List.mem_cons_self
  rw [cameraBinding, String.length_ofList, List.length_replicate] at short
  exact absurd short (by decide)

end RosBridge.App
