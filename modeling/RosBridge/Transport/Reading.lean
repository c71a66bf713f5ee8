import RosBridge.Transport.Negotiator
/-!
# What the negotiator reads

Of a section the negotiator keeps the last mid, the last direction, every codec, and for
the first codec of a payload type the last parameters (`read_spec`). An offer is read
exactly when none of its lines makes the parser throw (`document_read_isSome_iff`), and each section
is then read as it would be alone.
-/

namespace RosBridge.Transport

open Lib Session JsString RosJson

/-! ## What the negotiator keeps -/

def directionOf (line : JsString) : Option Direction :=
  match lineAttribute line with
  | .direction direction => some direction
  | _ => none

def midOf (line : JsString) : Option (Option JsString) :=
  match lineAttribute line with
  | .mid value => some value
  | _ => none

def codecLine (line : JsString) : Option OfferedCodec :=
  match lineAttribute line with
  | .rtpmap value => value.map codecOf
  | _ => none

/-- The parameters of a format line of that payload type. -/
def formatLine (payloadType : Number) (line : JsString) : Option JsString :=
  match lineAttribute line with
  | .fmtp (some value) => if Number.same payloadType (formatOf value).1 then some (formatOf value).2 else none
  | _ => none

/-- What replaces an earlier value is the last one. -/
theorem getLast?_filterMap_cons {α β : Type} (f : α → Option β) (a : α) (l : List α) (old : Option β) :
    ((a :: l).filterMap f).getLast?.or old = (l.filterMap f).getLast?.or ((f a).or old) := by
  cases kept : f a with
  | none => rw [List.filterMap_cons_none kept, Option.none_or]
  | some b =>
    rw [List.filterMap_cons_some kept, List.getLast?_cons]
    cases (l.filterMap f).getLast? <;> rfl

theorem readLine_isSome (media : MediaDescription) (line : JsString) : (media.readLine line).isSome = !lineFails line := by
  unfold MediaDescription.readLine
  cases lineFails line with
  | true => rfl
  | false =>
    rw [if_neg Bool.false_ne_true]
    split <;> rfl

/-- What one line leaves of a description. -/
theorem readLine_some {media next : MediaDescription} {line : JsString} (h : media.readLine line = some next) :
    next.direction = (directionOf line).or media.direction ∧ next.muxId = ((midOf line).or (some media.muxId)).join ∧
      next.codecs = media.codecs ++ (codecLine line).toList := by
  unfold MediaDescription.readLine at h
  split at h
  · cases h
  · cases e : lineAttribute line with
    | mid | direction | rtpmap | fmtp | other =>
      rw [e] at h
      obtain rfl := Option.some.inj h
      simp [directionOf, midOf, codecLine, e]

/-- The first pass: the last mid and direction, and every codec. -/
theorem readLine_spec {lines : List JsString} {media media' : MediaDescription}
    (h : lines.foldlM MediaDescription.readLine media = some media') :
    media'.direction = (lines.filterMap directionOf).getLast?.or media.direction ∧
      media'.muxId = ((lines.filterMap midOf).getLast?.or (some media.muxId)).join ∧
      media'.codecs = media.codecs ++ lines.filterMap codecLine := by
  induction lines generalizing media with
  | nil =>
    obtain rfl := Option.some.inj h
    exact ⟨rfl, rfl, (List.append_nil _).symm⟩
  | cons line lines ih =>
    rw [List.foldlM_cons] at h
    obtain ⟨next, first, h⟩ := Option.bind_eq_some_iff.1 h
    obtain ⟨direction, muxId, codecs⟩ := ih h
    obtain ⟨direction₁, muxId₁, codecs₁⟩ := readLine_some first
    refine ⟨?_, ?_, ?_⟩
    · rw [direction, direction₁, getLast?_filterMap_cons]
    · rw [muxId, muxId₁, getLast?_filterMap_cons]
      cases midOf line <;> rfl
    · rw [codecs, codecs₁, List.append_assoc, List.filterMap_cons]
      cases codecLine line <;> rfl

/-- A codec without its parameters. -/
def OfferedCodec.bare (codec : OfferedCodec) : OfferedCodec := { codec with parameters := none }

theorem same_iff {a b : Number} : Number.same a b = true ↔ a ≠ .nan ∧ a = b := by
  unfold Number.same
  exact decide_eq_true_iff

/-- Parameters go to the codec in the middle exactly when the payload type is its own
and no codec before it has it. -/
theorem assign_spec {n : Number} {text : JsString} {before after : List OfferedCodec} {codec : OfferedCodec}
    {codecs : List OfferedCodec} (h : assign n text (before ++ codec :: after) = some codecs) :
    ∃ before' codec' after', codecs = before' ++ codec' :: after' ∧ before'.map OfferedCodec.bare = before.map OfferedCodec.bare ∧
      codec'.bare = codec.bare ∧ codec'.parameters =
        if Number.same codec.payloadType n ∧ ∀ c ∈ before, ¬Number.same c.payloadType codec.payloadType then some text
        else codec.parameters := by
  induction before generalizing codecs with
  | nil =>
    rw [List.nil_append] at h
    unfold assign at h
    split at h
    · next own =>
      obtain rfl := Option.some.inj h
      refine ⟨[], { codec with parameters := some text }, after, rfl, rfl, rfl, ?_⟩
      rw [if_pos ⟨own, List.forall_mem_nil _⟩]
    · next other =>
      obtain ⟨rest, -, rfl⟩ := Option.map_eq_some_iff.1 h
      refine ⟨[], codec, rest, rfl, rfl, rfl, ?_⟩
      rw [if_neg fun own => other own.1]
  | cons first before ih =>
    rw [List.cons_append] at h
    unfold assign at h
    split at h
    · next taken =>
      obtain rfl := Option.some.inj h
      refine ⟨{ first with parameters := some text } :: before, codec, after, rfl, rfl, rfl, ?_⟩
      rw [if_neg]
      intro own
      obtain ⟨-, e⟩ := same_iff.1 own.1
      have none := own.2 first List.mem_cons_self
      rw [e] at none
      exact none taken
    · next other =>
      obtain ⟨rest, rec, rfl⟩ := Option.map_eq_some_iff.1 h
      obtain ⟨before', codec', after', rfl, bare, same, parameters⟩ := ih rec
      refine ⟨first :: before', codec', after', rfl, by rw [List.map_cons, List.map_cons, bare], same, ?_⟩
      rw [parameters]
      refine if_congr ?_ rfl rfl
      constructor
      · intro own
        refine ⟨own.1, List.forall_mem_cons.2 ⟨fun taken => other ?_, own.2⟩⟩
        obtain ⟨-, e⟩ := same_iff.1 own.1
        rw [← e]
        exact taken
      · exact fun own => ⟨own.1, (List.forall_mem_cons.1 own.2).2⟩

theorem payloadType_bare {a b : OfferedCodec} (h : a.bare = b.bare) : a.payloadType = b.payloadType := by
  have bare := congrArg OfferedCodec.payloadType h
  exact bare

theorem forall_bare {l l' : List OfferedCodec} (h : l'.map OfferedCodec.bare = l.map OfferedCodec.bare)
    {P : OfferedCodec → Prop} (bare : ∀ c, P c.bare ↔ P c) : (∀ c ∈ l', P c) ↔ ∀ c ∈ l, P c := by
  have mapped : ∀ l : List OfferedCodec, (∀ c ∈ l, P c) ↔ ∀ c ∈ l.map OfferedCodec.bare, P c := by
    intro l
    simp only [List.mem_map, forall_exists_index, and_imp, forall_apply_eq_imp_iff₂, bare]
  rw [mapped l', h, ← mapped l]

/-- The second pass: a codec gets the last parameters that name its payload type, if it
is the first codec of that payload type. -/
theorem readFormat_spec {lines : List JsString} {media media' : MediaDescription} {before after : List OfferedCodec}
    {codec : OfferedCodec} (h : lines.foldlM MediaDescription.readFormat media = some media')
    (split : media.codecs = before ++ codec :: after) :
    media'.direction = media.direction ∧ media'.muxId = media.muxId ∧
      ∃ before' codec' after', media'.codecs = before' ++ codec' :: after' ∧
        before'.map OfferedCodec.bare = before.map OfferedCodec.bare ∧ codec'.bare = codec.bare ∧ codec'.parameters =
          if ∀ c ∈ before, ¬Number.same c.payloadType codec.payloadType then
            (lines.filterMap (formatLine codec.payloadType)).getLast?.or codec.parameters
          else codec.parameters := by
  induction lines generalizing media before codec after with
  | nil =>
    obtain rfl := Option.some.inj h
    exact ⟨rfl, rfl, before, codec, after, split, rfl, rfl, (ite_self _).symm⟩
  | cons line lines ih =>
    rw [List.foldlM_cons] at h
    obtain ⟨next, first, h⟩ := Option.bind_eq_some_iff.1 h
    unfold MediaDescription.readFormat at first
    cases e : lineAttribute line with
    | fmtp value =>
      cases value with
      | none =>
        rw [e] at first
        cases first
      | some value =>
        rw [e] at first
        obtain ⟨codecs, assigned, rfl⟩ := Option.map_eq_some_iff.1 first
        rw [split] at assigned
        obtain ⟨before₁, codec₁, after₁, rfl, bare₁, same₁, parameters₁⟩ := assign_spec assigned
        obtain ⟨direction, muxId, before₂, codec₂, after₂, split₂, bare₂, same₂, parameters₂⟩ := ih h rfl
        refine ⟨direction, muxId, before₂, codec₂, after₂, split₂, bare₂.trans bare₁, same₂.trans same₁, ?_⟩
        have own := payloadType_bare same₁
        have alone : (∀ c ∈ before₁, ¬Number.same c.payloadType codec₁.payloadType) ↔
            ∀ c ∈ before, ¬Number.same c.payloadType codec.payloadType := by
          rw [own]
          exact forall_bare bare₁ fun c => Iff.rfl
        rw [parameters₂, own]
        rw [own] at alone
        by_cases clear : ∀ c ∈ before, ¬Number.same c.payloadType codec.payloadType
        · rw [if_pos (alone.2 clear), if_pos clear, parameters₁, getLast?_filterMap_cons]
          by_cases named : Number.same codec.payloadType (formatOf value).1 = true
          · have known : formatLine codec.payloadType line = some (formatOf value).2 := by
              simp only [formatLine, e, named, if_true]
            rw [if_pos ⟨named, clear⟩, known, Option.some_or]
          · have other : formatLine codec.payloadType line = none := by
              simp only [formatLine, e, named, if_false, Bool.false_eq_true]
            rw [if_neg fun own => named own.1, other, Option.none_or]
        · rw [if_neg fun h => clear (alone.1 h), if_neg clear, parameters₁, if_neg fun own => clear own.2]
    | mid | direction | rtpmap | other =>
      rw [e] at first
      obtain ⟨-, same⟩ := Option.ite_none_left_eq_some.1 first
      obtain rfl := Option.some.inj same
      have other : formatLine codec.payloadType line = none := by simp only [formatLine, e]
      rw [List.filterMap_cons_none other]
      exact ih h split

/-- The codec stamped on packets is the first one taken for H.264. -/
theorem stamped_of_split {byClock : Bool} {media : MediaDescription} {before after : List OfferedCodec} {codec : OfferedCodec}
    (split : media.codecs = before ++ codec :: after) (own : codec.isH264 byClock = true)
    (others : ∀ c ∈ before, ¬c.isH264 byClock = true) : media.stamped byClock = some codec := by
  have none : before.filter (OfferedCodec.isH264 byClock) = [] := List.filter_eq_nil_iff.2 others
  rw [MediaDescription.stamped, split, List.filter_append, none, List.nil_append, List.filter_cons_of_pos own, List.head?_cons]

theorem parameters_codecLine {lines : List JsString} : ∀ c ∈ lines.filterMap codecLine, c.parameters = none := by
  intro c hc
  obtain ⟨line, -, e⟩ := List.mem_filterMap.1 hc
  unfold codecLine at e
  split at e
  · obtain ⟨value, -, rfl⟩ := Option.map_eq_some_iff.1 e
    rfl
  · cases e

/-- What the negotiator keeps of a section. -/
theorem read_spec {s : MediaSection} {media : MediaDescription} (h : s.read = some media) (byClock : Bool) :
    media.direction = (s.attributes.filterMap directionOf).getLast? ∧
      media.muxId = (s.attributes.filterMap midOf).getLast?.join ∧
      ∀ before codec after, s.attributes.filterMap codecLine = before ++ codec :: after → codec.isH264 byClock = true →
        (∀ c ∈ before, ¬c.isH264 byClock = true) → ∃ stamped, media.stamped byClock = some stamped ∧
          stamped.payloadType = codec.payloadType ∧ stamped.parameters =
            if ∀ c ∈ before, ¬Number.same c.payloadType codec.payloadType then
              (s.attributes.filterMap (formatLine codec.payloadType)).getLast?
            else none := by
  unfold MediaSection.read at h
  obtain ⟨-, h⟩ := Option.ite_none_left_eq_some.1 h
  obtain ⟨first, pass₁, pass₂⟩ := Option.bind_eq_some_iff.1 h
  obtain ⟨direction, muxId, codecs⟩ := readLine_spec pass₁
  rw [Option.or_none] at direction
  rw [List.nil_append] at codecs
  have muxId : first.muxId = (s.attributes.filterMap midOf).getLast?.join := by
    rw [muxId]
    cases (s.attributes.filterMap midOf).getLast? <;> rfl
  have passed : ∀ {lines : List JsString} {media media' : MediaDescription},
      lines.foldlM MediaDescription.readFormat media = some media' →
        media'.direction = media.direction ∧ media'.muxId = media.muxId := by
    intro lines
    induction lines with
    | nil =>
      intro media media' h
      obtain rfl := Option.some.inj h
      exact ⟨rfl, rfl⟩
    | cons line lines ih =>
      intro media media' h
      rw [List.foldlM_cons] at h
      obtain ⟨next, step, h⟩ := Option.bind_eq_some_iff.1 h
      obtain ⟨direction, muxId⟩ := ih h
      have kept : next.direction = media.direction ∧ next.muxId = media.muxId := by
        unfold MediaDescription.readFormat at step
        split at step
        · cases step
        · obtain ⟨codecs, -, rfl⟩ := Option.map_eq_some_iff.1 step
          exact ⟨rfl, rfl⟩
        · obtain ⟨-, same⟩ := Option.ite_none_left_eq_some.1 step
          obtain rfl := Option.some.inj same
          exact ⟨rfl, rfl⟩
      exact ⟨direction.trans kept.1, muxId.trans kept.2⟩
  obtain ⟨sameDirection, sameMux⟩ := passed pass₂
  refine ⟨sameDirection.trans direction, sameMux.trans muxId, fun before codec after split own others => ?_⟩
  obtain ⟨-, -, before', codec', after', split', bare, same, parameters⟩ := readFormat_spec pass₂ (codecs.trans split)
  have h264 : codec'.isH264 byClock = true := by
    have bare : codec'.bare.isH264 byClock = codec.bare.isH264 byClock := by rw [same]
    exact bare.trans own
  refine ⟨codec', stamped_of_split split' h264 ?_, payloadType_bare same, ?_⟩
  · exact (forall_bare bare (P := fun c => ¬c.isH264 byClock = true) fun c => Iff.rfl).2 others
  · have listed : codec ∈ s.attributes.filterMap codecLine := by
      rw [split]
      exact List.mem_append_right _ List.mem_cons_self
    rw [parameters, parameters_codecLine codec listed, Option.or_none]

/-! ## What can be read -/

/-- A loop that may stop goes through where no element stops it, whatever the state. -/
theorem isSome_foldlM_iff {σ α : Type} {I : σ → Prop} {f : σ → α → Option σ} {p : α → Bool}
    (step : ∀ s a, I s → (f s a).isSome = !p a ∧ ∀ s', f s a = some s' → I s') (l : List α) {s : σ} (start : I s) :
    (l.foldlM f s).isSome = true ↔ ∀ a ∈ l, p a = false := by
  induction l generalizing s with
  | nil => exact iff_of_true rfl (List.forall_mem_nil _)
  | cons a l ih =>
    rw [List.foldlM_cons, List.forall_mem_cons]
    obtain ⟨passes, next⟩ := step s a start
    cases first : f s a with
    | none =>
      rw [first] at passes
      refine iff_of_false Bool.false_ne_true fun all => ?_
      rw [all.1] at passes
      cases passes
    | some s' =>
      rw [first] at passes
      have passed : p a = false := by simpa using passes.symm
      rw [and_iff_right passed]
      exact ih (next s' first)

/-- Whether a line throws in the second pass, after these codecs. -/
def formatFails (codecs : List OfferedCodec) (line : JsString) : Bool :=
  match lineAttribute line with
  | .fmtp none => true
  | .fmtp (some value) => codecs.all fun c => !Number.same c.payloadType (formatOf value).1
  | _ => bareFeedback line

theorem assign_isSome (n : Number) (text : JsString) (codecs : List OfferedCodec) :
    (assign n text codecs).isSome = !codecs.all fun c => !Number.same c.payloadType n := by
  induction codecs with
  | nil => rfl
  | cons codec rest ih =>
    unfold assign
    rw [List.all_cons]
    cases Number.same codec.payloadType n with
    | true => rfl
    | false => rw [if_neg Bool.false_ne_true, Option.isSome_map, ih, Bool.not_false, Bool.true_and]

theorem assign_bare {n : Number} {text : JsString} {codecs codecs' : List OfferedCodec} (h : assign n text codecs = some codecs') :
    codecs'.map OfferedCodec.bare = codecs.map OfferedCodec.bare := by
  induction codecs generalizing codecs' with
  | nil => cases h
  | cons codec rest ih =>
    unfold assign at h
    split at h
    · obtain rfl := Option.some.inj h
      rfl
    · obtain ⟨rest', assigned, rfl⟩ := Option.map_eq_some_iff.1 h
      rw [List.map_cons, List.map_cons, ih assigned]

theorem formatFails_bare {codecs codecs' : List OfferedCodec} (bare : codecs'.map OfferedCodec.bare = codecs.map OfferedCodec.bare)
    (line : JsString) : formatFails codecs' line = formatFails codecs line := by
  unfold formatFails
  split
  · rfl
  · next value _ =>
    rw [Bool.eq_iff_iff, List.all_eq_true, List.all_eq_true]
    exact forall_bare bare fun c => Iff.rfl
  · rfl

theorem readFormat_isSome (media : MediaDescription) (line : JsString) :
    (media.readFormat line).isSome = !formatFails media.codecs line := by
  unfold MediaDescription.readFormat formatFails
  cases lineAttribute line with
  | fmtp value =>
    cases value with
    | none => rfl
    | some value => exact Option.isSome_map.trans (assign_isSome _ _ _)
  | mid | direction | rtpmap | other => cases bareFeedback line <;> rfl

theorem readFormat_bare {media next : MediaDescription} {line : JsString} (h : media.readFormat line = some next) :
    next.codecs.map OfferedCodec.bare = media.codecs.map OfferedCodec.bare := by
  unfold MediaDescription.readFormat at h
  split at h
  · cases h
  · obtain ⟨codecs, assigned, rfl⟩ := Option.map_eq_some_iff.1 h
    exact assign_bare assigned
  · obtain ⟨-, same⟩ := Option.ite_none_left_eq_some.1 h
    rw [Option.some.inj same]

/-- No line of a section makes the parser throw: the `m=` line has its four parts, no attribute
lacks the value that it needs, and every format line is of a payload type with a codec. -/
def MediaSection.Readable (s : MediaSection) : Prop :=
  opensMedia s.mLine = true ∧ (∀ line ∈ s.attributes, lineFails line = false) ∧
    ∀ line ∈ s.attributes, formatFails (s.attributes.filterMap codecLine) line = false

instance (s : MediaSection) : Decidable s.Readable := inferInstanceAs (Decidable (_ ∧ _ ∧ _))

theorem read_isSome_iff (s : MediaSection) : s.read.isSome = true ↔ s.Readable := by
  unfold MediaSection.read MediaSection.Readable
  cases opensMedia s.mLine with
  | false => exact iff_of_false Bool.false_ne_true fun h => Bool.false_ne_true h.1
  | true =>
    rw [Bool.not_true, if_neg Bool.false_ne_true, and_iff_right rfl]
    have lines := isSome_foldlM_iff (I := fun _ => True) (f := MediaDescription.readLine) (p := lineFails)
      (fun media line _ => ⟨readLine_isSome media line, fun _ _ => trivial⟩) s.attributes (s := ⟨none, none, []⟩) trivial
    cases first : s.attributes.foldlM MediaDescription.readLine ⟨none, none, []⟩ with
    | none =>
      rw [first] at lines
      exact iff_of_false Bool.false_ne_true fun h => Bool.false_ne_true (lines.2 h.1)
    | some media =>
      rw [first] at lines
      rw [and_iff_right (lines.1 rfl)]
      obtain ⟨-, -, codecs⟩ := readLine_spec first
      refine isSome_foldlM_iff
        (I := fun media => media.codecs.map OfferedCodec.bare = (s.attributes.filterMap codecLine).map OfferedCodec.bare) ?_ _ ?_
      · intro media line bare
        rw [readFormat_isSome, formatFails_bare bare]
        exact ⟨rfl, fun next read => (readFormat_bare read).trans bare⟩
      · exact congrArg (List.map OfferedCodec.bare) (codecs.trans (List.nil_append _))

/-- The last mid of a section, as the parser keeps it. -/
def MediaSection.muxId (s : MediaSection) : Option JsString := (s.attributes.filterMap midOf).getLast?.join

/-- The part of the loop over the sections that is about ICE. -/
def Document.shareSection (d : Document) (read : List IceParameters) (s : MediaSection) : Option (List IceParameters) :=
  (d.share read s.muxId s).map fun ice => read ++ [ice]

/-- No line of a document makes the parser throw, and no section without ICE credentials is left
to look for them in a section that comes later. -/
def Document.Readable (d : Document) : Prop :=
  (∀ line ∈ d.session, sessionLineFails line = false) ∧ (∀ s ∈ d.sections, s.Readable) ∧
    (d.sections.foldlM d.shareSection []).isSome = true

instance (d : Document) : Decidable d.Readable := inferInstanceAs (Decidable (_ ∧ _ ∧ _))

theorem readSections_isSome_iff (d : Document) (sections : List MediaSection) (done : List (MediaDescription × IceParameters)) :
    (sections.foldlM d.readSection done).isSome = true ↔
      (∀ s ∈ sections, s.Readable) ∧ (sections.foldlM d.shareSection (done.map Prod.snd)).isSome = true := by
  induction sections generalizing done with
  | nil => exact iff_of_true rfl ⟨List.forall_mem_nil _, rfl⟩
  | cons s sections ih =>
    rw [List.foldlM_cons, List.foldlM_cons, List.forall_mem_cons, ← read_isSome_iff s]
    cases read : s.read with
    | none =>
      have first : d.readSection done s = none := by simp [Document.readSection, read]
      rw [first]
      exact iff_of_false Bool.false_ne_true fun h => Bool.false_ne_true h.1.1
    | some media =>
      have muxId : media.muxId = s.muxId := (read_spec read true).2.1
      rw [Option.isSome_some, eq_self, true_and]
      cases shared : d.share (done.map Prod.snd) s.muxId s with
      | none =>
        have first : d.readSection done s = none := by simp [Document.readSection, read, muxId, shared]
        have first' : d.shareSection (done.map Prod.snd) s = none := by simp [Document.shareSection, shared]
        rw [first, first']
        exact iff_of_false Bool.false_ne_true fun h => Bool.false_ne_true h.2
      | some ice =>
        have first : d.readSection done s = some (done ++ [(media, ice)]) := by simp [Document.readSection, read, muxId, shared]
        have first' : d.shareSection (done.map Prod.snd) s = some ((done ++ [(media, ice)]).map Prod.snd) := by
          simp [Document.shareSection, shared]
        rw [first, first']
        exact ih (done ++ [(media, ice)])

/-- Every section is read as it would be alone. -/
theorem readSections_spec {d : Document} {sections : List MediaSection} {done all : List (MediaDescription × IceParameters)}
    (h : sections.foldlM d.readSection done = some all) :
    ∃ new, all = done ++ new ∧ ∀ (k : Nat) (s : MediaSection), sections[k]? = some s →
      ∃ media ice, s.read = some media ∧ new[k]? = some (media, ice) := by
  induction sections generalizing done with
  | nil =>
    obtain rfl := Option.some.inj h
    exact ⟨[], (List.append_nil _).symm, fun k s found => by cases found⟩
  | cons s sections ih =>
    rw [List.foldlM_cons] at h
    obtain ⟨next, first, h⟩ := Option.bind_eq_some_iff.1 h
    obtain ⟨media, read, first⟩ := Option.bind_eq_some_iff.1 first
    obtain ⟨ice, -, first⟩ := Option.bind_eq_some_iff.1 first
    obtain rfl := Option.some.inj first
    obtain ⟨new, rfl, each⟩ := ih h
    refine ⟨(media, ice) :: new, by rw [List.append_assoc, List.singleton_append], fun k t found => ?_⟩
    cases k with
    | zero =>
      obtain rfl := Option.some.inj found
      exact ⟨media, ice, read, rfl⟩
    | succ k => exact each k t found

theorem document_read_isSome_iff (d : Document) : d.read.isSome = true ↔ d.Readable := by
  have sections := readSections_isSome_iff d d.sections []
  rw [List.map_nil] at sections
  unfold Document.read Document.Readable
  rw [← sections]
  cases fails : d.session.any sessionLineFails with
  | true =>
    refine iff_of_false Bool.false_ne_true fun h => ?_
    obtain ⟨line, mem, fails⟩ := List.any_eq_true.1 fails
    rw [h.1 line mem] at fails
    cases fails
  | false =>
    rw [if_neg Bool.false_ne_true, Option.isSome_map, iff_and_self]
    intro _ line mem
    exact Bool.eq_false_iff.2 fun bad => Bool.false_ne_true (fails.symm.trans (List.any_eq_true.2 ⟨line, mem, bad⟩))

theorem document_read_spec {d : Document} {medias : List MediaDescription} (h : d.read = some medias) {k : Nat} {s : MediaSection}
    (found : d.sections[k]? = some s) : ∃ media, s.read = some media ∧ medias[k]? = some media := by
  unfold Document.read at h
  split at h
  · cases h
  · obtain ⟨all, read, rfl⟩ := Option.map_eq_some_iff.1 h
    obtain ⟨new, rfl, each⟩ := readSections_spec read
    obtain ⟨media, ice, own, there⟩ := each k s found
    exact ⟨media, own, by rw [List.getElem?_map, there]; rfl⟩

end RosBridge.Transport
