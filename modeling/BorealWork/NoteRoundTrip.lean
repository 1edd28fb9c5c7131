/- Notes rendered and read back: nothing is escaped, so a title, a body or a citation can be taken for
structure. What is read back of any note, and exactly when it is what was written. -/
import BorealWork.NoteText

namespace Boreal.Memory
open Drain Lines Sorting
open WorkModel (isControl)

variable {draft : Draft} {state : String}

theorem decodeText_encoded (text : List Char) : decodeText (Utf8.encoded text) = some text := by
  have bytes : (⟨(Utf8.encoded text).toArray⟩ : ByteArray) = (String.ofList text).toByteArray := by
    have joined : (Utf8.encoded text).toByteArray = (String.ofList text).toByteArray := by
      rw [String.toByteArray_ofList, List.utf8Encode, Utf8.encoded]
    rw [← joined]
    exact ByteArray.ext List.data_toByteArray.symm
  rw [decodeText, bytes, String.fromUTF8?, dif_pos (String.ofList text).isValidUTF8]
  exact congrArg some String.toList_ofList

theorem stripPrefix_eq_some {start line rest : List Char} :
    stripPrefix start line = some rest ↔ line = start ++ rest := by
  rw [stripPrefix]
  constructor
  · intro stripped
    split_ifs at stripped with prefixed
    obtain ⟨tail, rfl⟩ := List.isPrefixOf_iff_prefix.mp prefixed
    rw [← Option.some.inj stripped, List.drop_left]
  · rintro rfl
    rw [if_pos (List.isPrefixOf_iff_prefix.mpr (List.prefix_append _ _)), List.drop_left]

theorem stripSuffix_eq_some {ending line rest : List Char} :
    stripSuffix ending line = some rest ↔ line = rest ++ ending := by
  rw [stripSuffix]
  constructor
  · intro stripped
    split_ifs at stripped with suffixed
    obtain ⟨front, rfl⟩ := List.isSuffixOf_iff_suffix.mp suffixed
    rw [← Option.some.inj stripped, List.length_append, Nat.add_sub_cancel, List.take_left]
  · rintro rfl
    rw [if_pos (List.isSuffixOf_iff_suffix.mpr (List.suffix_append _ _)), List.length_append,
      Nat.add_sub_cancel, List.take_left]

def opening : List Char := [' ', '(']

theorem opening_text : " (".toList = opening := by rfl

theorem sourcesHeading_text : sourcesHeading = ['#', '#', ' ', 'S', 'o', 'u', 'r', 'c', 'e', 's'] := by
  rfl

/-- A citation in a line: both parts are there, and the location holds no opening of its own. -/
structure Citation.Plain (citation : Citation) : Prop where
  source : citation.sourceVersionId ≠ ""
  location : citation.location ≠ ""
  unopened : ¬ opening <:+: citation.location.toList

theorem Citation.line_eq (citation : Citation) :
    citation.line = "- ".toList ++ (citation.sourceVersionId.toList ++ ' ' :: ['('] ++
      (citation.location.toList ++ [')'])) := by
  delta Citation.line
  rw [opening_text, opening]
  simp only [List.append_assoc, List.cons_append, List.nil_append]

theorem infix_opening_iff (location : List Char) :
    (' ' :: ['(']) <:+: ['('] ++ (location ++ [')']) ↔ opening <:+: location := by
  constructor
  · intro inside
    rw [List.singleton_append, List.infix_cons_iff] at inside
    rcases inside with here | ⟨front, behind, split⟩
    · exact absurd (List.cons_prefix_cons.mp here).1 (by decide)
    · rcases List.eq_nil_or_concat' behind with rfl | ⟨behind, last, rfl⟩
      · rw [List.append_nil] at split
        have ends := congrArg List.getLast? split
        rw [List.getLast?_concat, List.getLast?_append] at ends
        exact absurd (Option.some.inj ends) (by decide)
      · rw [← List.append_assoc] at split
        exact ⟨front, behind, (List.append_inj' split rfl).1⟩
  · rintro ⟨front, behind, split⟩
    refine ⟨'(' :: front, behind ++ [')'], ?_⟩
    rw [← split]
    simp [opening]

theorem parseRenderedCitation_eq_some {line : List Char} {citation : Citation} :
    parseRenderedCitation line = some citation ↔ line = citation.line ∧ citation.Plain := by
  rw [Citation.line_eq, parseRenderedCitation, opening_text, opening]
  constructor
  · intro parsed
    obtain ⟨value, stripped, valued⟩ := Option.bind_eq_some_iff.mp parsed
    obtain ⟨⟨source, place⟩, split, placed⟩ := Option.bind_eq_some_iff.mp valued
    obtain ⟨location, closed, built⟩ := Option.bind_eq_some_iff.mp placed
    obtain ⟨whole, last⟩ := rsplitOnce_eq_some.mp split
    have ended : place = location ++ [')'] := stripSuffix_eq_some.mp closed
    subst ended
    split_ifs at built with empty
    obtain rfl := Option.some.inj built
    rw [not_or] at empty
    rw [infix_opening_iff] at last
    refine ⟨?_, fun none => empty.1 (by simpa using none),
      fun none => empty.2 (by simpa using none), ?_⟩
    · rw [stripPrefix_eq_some.mp stripped, whole]
      simp only [String.toList_ofList]
    · simpa only [String.toList_ofList] using last
  · rintro ⟨rfl, plain⟩
    have last := mt (infix_opening_iff _).mp plain.unopened
    have source : citation.sourceVersionId.toList ≠ [] := fun none =>
      plain.source (String.toList_inj.mp none)
    have location : citation.location.toList ≠ [] := fun none =>
      plain.location (String.toList_inj.mp none)
    rw [stripPrefix_eq_some.mpr rfl]
    simp only [Option.bind_eq_bind, Option.bind_some]
    rw [rsplitOnce_eq_some.mpr ⟨rfl, last⟩]
    simp only [Option.bind_some]
    rw [stripSuffix_eq_some.mpr rfl]
    simp only [Option.bind_some, source, location, or_self, if_false, String.ofList_toList]

theorem validateSegment_eq_ok {value : String} :
    validateSegment value = .ok () ↔ value ≠ "" ∧ value ≠ "." ∧ value ≠ ".." ∧
      value.utf8ByteSize ≤ 255 ∧ ∀ c ∈ value.toList, unsafeCharacter c = false := by
  simp only [validateSegment, check_eq_ok, refuse_eq_ok, not_or, not_lt, List.any_eq_true,
    not_exists, not_and, Bool.not_eq_true, ne_eq]

theorem newline_notMem_segment {value : String} (valid : validateSegment value = .ok ()) :
    '\n' ∉ value.toList := by
  intro member
  have safe := (validateSegment_eq_ok.mp valid).2.2.2.2 '\n' member
  exact absurd safe (by decide)

/-- What follows the body of a note. -/
def sourcesPart (draft : Draft) : List Char :=
  '\n' :: '\n' :: (sourcesHeading ++ '\n' :: (sourceLines draft ++ ['\n']))

theorem noteText_eq (draft : Draft) (state : String) :
    noteText draft state = ['\n'].intercalate (frontLines draft state) ++ ('\n' :: '\n' :: ['#', ' '] ++
      (draft.title.toList ++ '\n' :: '\n' :: (draft.body.toList ++ sourcesPart draft))) := by
  have heading : "\n\n# ".toList = ['\n', '\n', '#', ' '] := by simp
  have blank : "\n\n".toList = ['\n', '\n'] := by simp
  have sources : "\n\n## Sources\n".toList = '\n' :: '\n' :: (sourcesHeading ++ ['\n']) := by
    rfl
  delta noteText sourcesPart
  simp only [heading, blank, sources, List.append_assoc, List.cons_append, List.nil_append]

theorem frontLines_plain {state : String} (project : validateSegment draft.projectId = .ok ())
    (entry : validateSegment draft.entryId = .ok ()) (unbroken : '\n' ∉ state.toList) :
    ∀ line ∈ frontLines draft state, (line ≠ [] ∧ '\n' ∉ line) ∧ line.head? ≠ some '#' := by
  have schema : "schema_version: ".toList ++ entrySchemaVersion.toList =
      's' :: "chema_version: boreal.memory_entry.v1".toList := by rfl
  have projectId : "project_id: ".toList = 'p' :: "roject_id: ".toList := by simp
  have entryId : "entry_id: ".toList = 'e' :: "ntry_id: ".toList := by simp
  have stateKey : "state: ".toList = 's' :: "tate: ".toList := by simp
  have labels : '\n' ∉ "chema_version: boreal.memory_entry.v1".toList ∧ '\n' ∉ "roject_id: ".toList ∧
      '\n' ∉ "ntry_id: ".toList ∧ '\n' ∉ "tate: ".toList := by simp
  have rule : ("---".toList ≠ [] ∧ '\n' ∉ "---".toList) ∧ "---".toList.head? ≠ some '#' := by
    simp
  have labelled {c : Char} {label value : List Char} (solid : c ≠ '\n') (other : c ≠ '#')
      (first : '\n' ∉ label) (second : '\n' ∉ value) :
      (c :: label ++ value ≠ [] ∧ '\n' ∉ c :: label ++ value) ∧
        (c :: label ++ value).head? ≠ some '#' := by
    refine ⟨⟨List.cons_ne_nil _ _, ?_⟩, fun same => other (Option.some.inj same)⟩
    rw [List.cons_append, List.mem_cons, List.mem_append, not_or, not_or]
    exact ⟨Ne.symm solid, first, second⟩
  rw [frontLines, schema, projectId, entryId, stateKey]
  simp only [List.forall_mem_cons]
  refine ⟨rule, ?_, ?_, ?_, ?_, rule, fun line none => absurd none List.not_mem_nil⟩
  · have unlabelled : '\n' ∉ ([] : List Char) := List.not_mem_nil
    have := labelled (by decide : 's' ≠ '\n') (by decide) labels.1 unlabelled
    rwa [List.append_nil] at this
  · exact labelled (by decide) (by decide) labels.2.1 (newline_notMem_segment project)
  · exact labelled (by decide) (by decide) labels.2.2.1 (newline_notMem_segment entry)
  · exact labelled (by decide) (by decide) labels.2.2.2 unbroken

/-- What a note renders, as far as its reader depends on it. -/
structure Framed (draft : Draft) (state : String) : Prop where
  project : validateSegment draft.projectId = .ok ()
  entry : validateSegment draft.entryId = .ok ()
  state : '\n' ∉ state.toList

theorem lines_noteText (framed : Framed draft state) :
    lines (noteText draft state) = (frontLines draft state).map dropCarriage ++ [] ::
      lines ('#' :: ' ' :: draft.title.toList ++ '\n' :: '\n' ::
        (draft.body.toList ++ sourcesPart draft)) := by
  have plain := frontLines_plain framed.project framed.entry framed.state
  have some_ : frontLines draft state ≠ [] := List.cons_ne_nil _ _
  have joined := lines_intercalate some_ fun line member => (plain line member).1.2
  have blank (rest : List Char) : lines ('\n' :: rest) = [] :: lines rest :=
    lines_cons List.not_mem_nil rest
  rw [noteText_eq, List.cons_append, joined, List.cons_append, blank]
  rfl

theorem heading_ne_of_head {line : List Char} (other : line.head? ≠ some '#') :
    ∀ start rest, dropCarriage line ≠ '#' :: start ++ rest := by
  intro start rest same
  obtain ⟨tail, whole⟩ := dropCarriage_isPrefix line
  rw [same] at whole
  rw [← whole] at other
  exact other rfl

theorem dropCarriage_heading (title : List Char) :
    dropCarriage ('#' :: ' ' :: title) = '#' :: ' ' :: dropCarriage title := by
  rw [dropCarriage, dropCarriage]
  cases title with
  | nil => rfl
  | cons c title =>
    rw [List.getLast?_cons_cons, List.getLast?_cons_cons]
    split_ifs <;> rfl

theorem findTitle_noteText (framed : Framed draft state) :
    findTitle (noteText draft state) =
      (some (dropCarriage (draft.title.toList.takeWhile (· ≠ '\n')))).filter (· ≠ []) := by
  have hash : "# ".toList = ['#', ' '] := by simp
  have plain := frontLines_plain framed.project framed.entry framed.state
  have front : ((frontLines draft state).map dropCarriage).findSome? (stripPrefix "# ".toList) = none := by
    rw [List.findSome?_eq_none_iff, List.forall_mem_map]
    intro line member
    rw [Option.eq_none_iff_forall_ne_some]
    intro rest stripped
    have same := stripPrefix_eq_some.mp stripped
    rw [hash] at same
    exact heading_ne_of_head (plain line member).2 [' '] rest same
  obtain ⟨behind, opened⟩ := head?_lines ('#' :: ' ' :: draft.title.toList)
    ('\n' :: (draft.body.toList ++ sourcesPart draft))
  have first : ('#' :: ' ' :: draft.title.toList).takeWhile (· ≠ '\n') =
      '#' :: ' ' :: draft.title.toList.takeWhile (· ≠ '\n') := rfl
  have found : stripPrefix "# ".toList
      (dropCarriage ('#' :: ' ' :: draft.title.toList.takeWhile (· ≠ '\n'))) =
      some (dropCarriage (draft.title.toList.takeWhile (· ≠ '\n'))) := by
    rw [stripPrefix_eq_some, dropCarriage_heading, hash]
    rfl
  have blank : stripPrefix "# ".toList [] = none := by rfl
  rw [findTitle, lines_noteText framed, List.findSome?_append, front, Option.none_or,
    List.findSome?_cons_of_isNone (by rw [blank]; rfl), opened, first,
    List.findSome?_cons_of_isSome (by rw [found]; rfl), found]

theorem firstLine_eq_iff {title : List Char} :
    dropCarriage (title.takeWhile (· ≠ '\n')) = title ↔ '\n' ∉ title ∧ title.getLast? ≠ some '\r' := by
  constructor
  · intro same
    have whole : title.takeWhile (· ≠ '\n') = title := by
      apply (List.takeWhile_prefix _).eq_of_length_le
      have := (dropCarriage_isPrefix (title.takeWhile (· ≠ '\n'))).length_le
      rwa [same] at this
    rw [whole] at same
    refine ⟨fun member => ?_, dropCarriage_eq_self.mp same⟩
    rw [List.takeWhile_eq_self_iff] at whole
    have := whole '\n' member
    simp at this
  · rintro ⟨unbroken, ending⟩
    have whole : title.takeWhile (· ≠ '\n') = title := by
      rw [List.takeWhile_eq_self_iff]
      intro c member
      exact decide_eq_true fun same : c = '\n' => unbroken (same ▸ member)
    rw [whole, dropCarriage_of_ne ending]

theorem behindSources_append {front rest : List (List Char)}
    (other : ∀ line ∈ front, line ≠ sourcesHeading) :
    behindSources (front ++ rest) = behindSources rest := by
  rw [behindSources, List.dropWhile_append_of_pos fun line member => decide_eq_true (other line member)]
  rfl

theorem parse_blank : parseRenderedCitation [] = none := by rfl

theorem parse_heading : parseRenderedCitation sourcesHeading = none := by rfl

theorem behindSources_self (rest : List (List Char)) : behindSources (sourcesHeading :: rest) = rest := by
  rw [behindSources, List.dropWhile_cons_of_neg (by simp)]
  rfl

theorem filterMap_behindSources (front rest : List (List Char)) :
    (behindSources (front ++ [] :: sourcesHeading :: rest)).filterMap parseRenderedCitation =
      (behindSources front).filterMap parseRenderedCitation ++
        rest.filterMap parseRenderedCitation := by
  induction front with
  | nil =>
    have blank : ∀ line ∈ [([] : List Char)], line ≠ sourcesHeading := by decide
    have passed := @behindSources_append _ (sourcesHeading :: rest) blank
    rw [List.singleton_append] at passed
    rw [List.nil_append, passed, behindSources_self]
    rfl
  | cons line front ih =>
    by_cases heading : line = sourcesHeading
    · rw [heading, List.cons_append, behindSources_self, behindSources_self, List.filterMap_append,
        List.filterMap_cons_none parse_blank, List.filterMap_cons_none parse_heading]
    · have other : ∀ first ∈ [line], first ≠ sourcesHeading := fun first member =>
        List.mem_singleton.mp member ▸ heading
      have passed (rest : List (List Char)) := @behindSources_append _ rest other
      simp only [List.singleton_append] at passed
      rw [List.cons_append, passed, passed, ih]

theorem renderedCitations_noteText (framed : Framed draft state) (unbroken : '\n' ∉ draft.title.toList) :
    renderedCitations (noteText draft state) =
      (behindSources (lines (draft.body.toList ++ ['\n']))).filterMap parseRenderedCitation ++
        (lines (sourceLines draft ++ ['\n'])).filterMap parseRenderedCitation := by
  have plain := frontLines_plain framed.project framed.entry framed.state
  have heading : '\n' ∉ '#' :: ' ' :: draft.title.toList := by
    rw [List.mem_cons, List.mem_cons, not_or, not_or]
    exact ⟨by decide, by decide, unbroken⟩
  have sourcesLine : '\n' ∉ sourcesHeading := by decide
  have ending : dropCarriage sourcesHeading = sourcesHeading := by rfl
  have front : ∀ line ∈ (frontLines draft state).map dropCarriage ++
      [[], dropCarriage ('#' :: ' ' :: draft.title.toList), []], line ≠ sourcesHeading := by
    intro line member
    rw [List.mem_append, List.mem_map] at member
    rw [sourcesHeading_text]
    rcases member with ⟨original, inside, rfl⟩ | member
    · exact heading_ne_of_head (plain original inside).2 ['#'] _
    · rw [dropCarriage_heading] at member
      simp only [List.mem_cons, List.not_mem_nil, or_false] at member
      rcases member with rfl | rfl | rfl
      · exact nofun
      · intro same
        exact absurd (List.cons.inj (List.cons.inj same).2).1 (by decide)
      · exact nofun
  rw [renderedCitations, lines_noteText framed, lines_cons heading]
  have blank (rest : List Char) : lines ('\n' :: rest) = [] :: lines rest :=
    lines_cons List.not_mem_nil rest
  have regrouped (ls : List (List Char)) (title : List Char) (rest : List (List Char)) :
      ls ++ [] :: title :: [] :: rest = (ls ++ [[], title, []]) ++ rest := by simp
  rw [blank, sourcesPart, lines_append, blank, lines_cons sourcesLine, ending, regrouped,
    behindSources_append front, filterMap_behindSources]

/-- A citation that its line determines. -/
structure Citation.Legible (citation : Citation) : Prop where
  source : '\n' ∉ citation.sourceVersionId.toList
  location : '\n' ∉ citation.location.toList
  unopened : ¬ opening <:+: citation.location.toList

theorem newline_mem_line {citation : Citation} :
    '\n' ∈ citation.line ↔
      '\n' ∈ citation.sourceVersionId.toList ∨ '\n' ∈ citation.location.toList := by
  rw [Citation.line_eq]
  simp

theorem dropCarriage_line (citation : Citation) : dropCarriage citation.line = citation.line := by
  apply dropCarriage_of_ne
  rw [Citation.line_eq, ← List.append_assoc, ← List.append_assoc, List.getLast?_concat]
  decide

theorem parse_line {citation : Citation} (plain : citation.Plain) :
    parseRenderedCitation citation.line = some citation :=
  parseRenderedCitation_eq_some.mpr ⟨rfl, plain⟩

theorem filterMap_sourceLines (cited : draft.citations ≠ [])
    (plain : ∀ citation ∈ draft.citations, citation.Plain)
    (legible : ∀ citation ∈ draft.citations, citation.Legible) :
    (lines (sourceLines draft ++ ['\n'])).filterMap parseRenderedCitation =
      sortedCitations draft.citations := by
  have some_ : (sortedCitations draft.citations).map Citation.line ≠ [] := by
    rw [ne_eq, List.map_eq_nil_iff, sortedCitations, sortOn_eq_nil]
    exact cited
  have unbroken : ∀ line ∈ (sortedCitations draft.citations).map Citation.line, '\n' ∉ line := by
    rw [List.forall_mem_map]
    intro citation member
    have own := legible citation (mem_sortOn.mp member)
    rw [newline_mem_line, not_or]
    exact ⟨own.source, own.location⟩
  rw [sourceLines, lines_intercalate some_ unbroken, List.map_map, show lines [] = [] from rfl,
    List.append_nil, List.filterMap_map]
  have each : ∀ citation ∈ sortedCitations draft.citations,
      (parseRenderedCitation ∘ (dropCarriage ∘ Citation.line)) citation = some citation := by
    intro citation member
    change parseRenderedCitation (dropCarriage citation.line) = some citation
    rw [dropCarriage_line, parse_line (plain citation (mem_sortOn.mp member))]
  rw [List.filterMap_congr each, List.filterMap_some]

theorem legible_of_rendered {text : List Char} {citation : Citation}
    (member : citation ∈ renderedCitations text) : citation.Legible := by
  obtain ⟨line, behind, parsed⟩ := List.mem_filterMap.mp member
  obtain ⟨rfl, plain⟩ := parseRenderedCitation_eq_some.mp parsed
  have inside : citation.line ∈ lines text :=
    (List.dropWhile_suffix _).subset (List.mem_of_mem_drop behind)
  have unbroken := newline_not_mem_lines inside
  rw [newline_mem_line, not_or] at unbroken
  exact ⟨unbroken.1, unbroken.2, plain.unopened⟩

theorem renderedCitations_eq_iff (framed : Framed draft state) (unbroken : '\n' ∉ draft.title.toList)
    (cited : draft.citations ≠ []) (named : ∀ citation ∈ draft.citations,
      citation.sourceVersionId ≠ "" ∧ citation.location ≠ "") :
    renderedCitations (noteText draft state) = sortedCitations draft.citations ↔
      (∀ citation ∈ draft.citations, citation.Legible) ∧
        ∀ line ∈ behindSources (lines (draft.body.toList ++ ['\n'])),
          parseRenderedCitation line = none := by
  have plain (legible : ∀ citation ∈ draft.citations, citation.Legible) :
      ∀ citation ∈ draft.citations, citation.Plain := fun citation member =>
    ⟨(named citation member).1, (named citation member).2, (legible citation member).unopened⟩
  rw [← List.filterMap_eq_nil_iff]
  constructor
  · intro same
    have legible : ∀ citation ∈ draft.citations, citation.Legible := by
      intro citation member
      have rendered : citation ∈ sortedCitations draft.citations := mem_sortOn.mpr member
      rw [← same] at rendered
      exact legible_of_rendered rendered
    refine ⟨legible, ?_⟩
    rw [renderedCitations_noteText framed unbroken,
      filterMap_sourceLines cited (plain legible) legible] at same
    exact List.append_left_eq_self.mp same
  · rintro ⟨legible, nothing⟩
    rw [renderedCitations_noteText framed unbroken, nothing,
      filterMap_sourceLines cited (plain legible) legible, List.nil_append]

def sourcesBreak : List Char := '\n' :: '\n' :: sourcesHeading

def OpensWithSources (body : List Char) : Prop :=
  sourcesHeading <+: body ∨ '\n' :: sourcesHeading <+: body

instance (body : List Char) : Decidable (OpensWithSources body) :=
  inferInstanceAs (Decidable (_ ∨ _))

theorem prefix_of_prefix_append {text body rest : List Char} (unbroken : '\n' ∉ text)
    (prefixed : text <+: body ++ '\n' :: rest) : text <+: body := by
  rcases List.prefix_or_prefix_of_prefix prefixed (List.prefix_append body _) with inside | outside
  · exact inside
  · obtain ⟨more, rfl⟩ := outside
    rw [List.prefix_append_right_inj] at prefixed
    cases more with
    | nil => rw [List.append_nil]
    | cons c more =>
      obtain ⟨rfl, _⟩ := List.cons_prefix_cons.mp prefixed
      exact absurd (List.mem_append_right _ List.mem_cons_self) unbroken

theorem newline_notMem_heading : '\n' ∉ sourcesHeading := by decide

theorem sourcesBreak_isPrefix {front rest : List Char} (some_ : front ≠ [])
    (prefixed : sourcesBreak <+: front ++ (sourcesBreak ++ rest)) : sourcesBreak <+: front := by
  rcases List.prefix_or_prefix_of_prefix prefixed (List.prefix_append front _) with inside | outside
  · exact inside
  · obtain ⟨more, whole⟩ := outside
    have apart : ∀ n < sourcesBreak.length, 0 < n → ¬ sourcesBreak.drop n <+: sourcesBreak := by
      decide
    have short : sourcesBreak.drop front.length = more := by rw [← whole, List.drop_left]
    by_cases all : front.length < sourcesBreak.length
    · refine absurd ?_ (apart front.length all (List.length_pos_iff.mpr some_))
      rw [short]
      rw [← whole, List.prefix_append_right_inj] at prefixed
      refine List.prefix_of_prefix_length_le (prefixed.trans ?_) (List.prefix_append _ rest) ?_
      · rw [whole]
      · rw [← whole, List.length_append]
        omega
    · have nothing : more = [] := by
        rw [← short]
        exact List.drop_eq_nil_of_le (not_lt.mp all)
      rw [← whole, nothing, List.append_nil]

theorem splitOnce_body {body rest front behind : List Char}
    (split : splitOnce sourcesBreak (body ++ (sourcesBreak ++ rest)) = some (front, behind)) :
    trim isWhiteSpace front = trim isWhiteSpace body ↔ ¬ sourcesBreak <:+: body := by
  by_cases inside : sourcesBreak <:+: body
  · refine iff_of_false (fun same => ?_) (not_not.mpr inside)
    cases found : splitOnce sourcesBreak body with
    | none => exact splitOnce_eq_none.mp found inside
    | some parts =>
      obtain ⟨front', behind'⟩ := parts
      have whole := splitOnce_spec found
      rw [splitOnce_append found] at split
      obtain ⟨rfl, _⟩ := Prod.mk.inj (Option.some.inj split)
      -- the heading itself is not blank
      have solid : 0 < (sourcesBreak.filter (!isWhiteSpace ·)).length := by decide
      have kept := congrArg (fun text => (text.filter (!isWhiteSpace ·)).length) same
      simp only [filter_trim] at kept
      rw [whole, List.filter_append, List.filter_append, List.length_append, List.length_append] at kept
      omega
  · refine iff_of_true ?_ inside
    have absent : ∀ n < body.length, ¬ sourcesBreak <+: (body ++ (sourcesBreak ++ rest)).drop n := by
      intro n within prefixed
      rw [List.drop_append_of_le_length within.le] at prefixed
      have some_ : body.drop n ≠ [] := fun none => by
        rw [List.drop_eq_nil_iff] at none
        omega
      exact inside ((sourcesBreak_isPrefix some_ prefixed).isInfix.trans (List.drop_suffix n body).isInfix)
    rw [splitOnce_skip absent, splitOnce_here] at split
    obtain ⟨rfl, _⟩ := Prod.mk.inj (Option.some.inj split)
    rw [List.append_nil]

/-- The part between the first heading and the heading of the sources, behind an empty line. -/
def innerBody (part : List Char) : List Char :=
  match splitOnce ['\n', '\n'] part with
  | some (_, behind) => behind
  | none => part

theorem innerBody_title {title : List Char} (unbroken : '\n' ∉ title) (ending : List Char)
    (short : ending = [] ∨ ending = ['\n']) : innerBody (title ++ ending) = title ++ ending := by
  have missing : splitOnce ['\n', '\n'] ending = none := by
    rcases short with rfl | rfl
    · rfl
    · rfl
  rw [innerBody, splitOnce_skip_of_notMem unbroken, missing]
  rfl

theorem innerBody_body {title : List Char} (unbroken : '\n' ∉ title) (body : List Char) :
    innerBody (title ++ '\n' :: '\n' :: body) = body := by
  have here : splitOnce ['\n', '\n'] ('\n' :: '\n' :: body) = some ([], body) :=
    @splitOnce_here ['\n', '\n'] body
  rw [innerBody, splitOnce_skip_of_notMem unbroken, here]
  rfl

theorem splitOnce_opened {title body rest : List Char} (unbroken : '\n' ∉ title)
    (opens : OpensWithSources body) :
    ∃ ending behind, (ending = [] ∨ ending = ['\n']) ∧
      splitOnce sourcesBreak (title ++ '\n' :: '\n' :: (body ++ rest)) =
        some (title ++ ending, behind) := by
  rcases opens with ⟨more, rfl⟩ | ⟨more, rfl⟩
  · refine ⟨[], more ++ rest, .inl rfl, ?_⟩
    have here := @splitOnce_here sourcesBreak (more ++ rest)
    rw [sourcesBreak, splitOnce_skip_of_notMem unbroken, List.append_assoc]
    rw [sourcesBreak, List.cons_append, List.cons_append] at here
    rw [here]
    rfl
  · refine ⟨['\n'], more ++ rest, .inr rfl, ?_⟩
    have here := @splitOnce_here sourcesBreak (more ++ rest)
    have absent : ∀ n < ['\n'].length,
        ¬ sourcesBreak <+: (['\n'] ++ (sourcesBreak ++ (more ++ rest))).drop n := by
      intro n within prefixed
      obtain rfl : n = 0 := Nat.lt_one_iff.mp within
      have third := (List.cons_prefix_cons.mp (List.cons_prefix_cons.mp prefixed).2).2
      rw [sourcesHeading_text] at third
      exact absurd (List.cons_prefix_cons.mp third).1 (by decide)
    have later := splitOnce_skip absent
    rw [here] at later
    rw [sourcesBreak] at later ⊢
    rw [splitOnce_skip_of_notMem unbroken]
    simp only [List.cons_append, List.nil_append, List.append_assoc] at later ⊢
    rw [later]
    rfl

theorem splitOnce_unopened {title body rest : List Char} (unbroken : '\n' ∉ title)
    (closed : ¬ OpensWithSources body) :
    ∃ front behind, splitOnce sourcesBreak (body ++ (sourcesBreak ++ rest)) = some (front, behind) ∧
      splitOnce sourcesBreak (title ++ '\n' :: '\n' :: (body ++ (sourcesBreak ++ rest))) =
        some (title ++ '\n' :: '\n' :: front, behind) := by
  rw [OpensWithSources, not_or] at closed
  have inside : sourcesBreak <:+: body ++ (sourcesBreak ++ rest) := ⟨body, rest, by simp⟩
  cases found : splitOnce sourcesBreak (body ++ (sourcesBreak ++ rest)) with
  | none => exact absurd inside (splitOnce_eq_none.mp found)
  | some parts =>
    obtain ⟨front, behind⟩ := parts
    have absent : ∀ n < ['\n', '\n'].length,
        ¬ sourcesBreak <+: (['\n', '\n'] ++ (body ++ (sourcesBreak ++ rest))).drop n := by
      intro n within prefixed
      obtain rfl | rfl : n = 0 ∨ n = 1 := by
        simp only [List.length_cons, List.length_nil] at within
        omega
      · have third := (List.cons_prefix_cons.mp (List.cons_prefix_cons.mp prefixed).2).2
        exact closed.1 (prefix_of_prefix_append newline_notMem_heading third)
      · have second := (List.cons_prefix_cons.mp prefixed).2
        cases body with
        | nil =>
          have third := (List.cons_prefix_cons.mp second).2
          rw [sourcesHeading_text] at third
          exact absurd (List.cons_prefix_cons.mp third).1 (by decide)
        | cons c body =>
          obtain ⟨rfl, third⟩ := List.cons_prefix_cons.mp second
          have own := prefix_of_prefix_append newline_notMem_heading third
          exact closed.2 (List.cons_prefix_cons.mpr ⟨rfl, own⟩)
    have later := splitOnce_skip absent
    rw [found] at later
    refine ⟨front, behind, rfl, ?_⟩
    rw [sourcesBreak] at later ⊢
    rw [splitOnce_skip_of_notMem unbroken]
    simp only [List.cons_append, List.nil_append] at later ⊢
    rw [later]
    rfl

/-- The body of the draft is read back, up to blank characters at its ends. -/
def BodyKept (title body : List Char) : Prop :=
  if OpensWithSources body then trim isWhiteSpace title = trim isWhiteSpace body
  else ¬ sourcesBreak <:+: body

instance (title body : List Char) : Decidable (BodyKept title body) :=
  inferInstanceAs (Decidable (if OpensWithSources body then _ else _))

theorem findBody_eq_iff (framed : Framed draft state) (unbroken : '\n' ∉ draft.title.toList) :
    findBody (noteText draft state) = trim isWhiteSpace draft.body.toList ↔
      BodyKept draft.title.toList draft.body.toList := by
  have heading : "\n\n# ".toList = '\n' :: '\n' :: ['#', ' '] := by simp
  have sources : "\n\n## Sources".toList = sourcesBreak := by rfl
  have blank : "\n\n".toList = ['\n', '\n'] := by simp
  have plain := frontLines_plain framed.project framed.entry framed.state
  have some_ : frontLines draft state ≠ [] := List.cons_ne_nil _ _
  have titled := @splitOnce_intercalate _ ['#', ' '] (draft.title.toList ++ '\n' :: '\n' ::
    (draft.body.toList ++ sourcesPart draft)) some_ fun line member => (plain line member).1
  have found {part behind : List Char} (split : splitOnce sourcesBreak
      (draft.title.toList ++ '\n' :: '\n' :: (draft.body.toList ++ sourcesPart draft)) =
        some (part, behind)) :
      findBody (noteText draft state) = trim isWhiteSpace (innerBody part) := by
    rw [findBody, heading, sources, blank, noteText_eq, titled]
    simp only [Option.bind_eq_bind, Option.bind_some]
    rw [split]
    rfl
  rw [BodyKept]
  split_ifs with opens
  · obtain ⟨ending, behind, short, split⟩ := @splitOnce_opened _ _ (sourcesPart draft) unbroken opens
    have spaces : ∀ c ∈ ending, isWhiteSpace c = true := by
      rcases short with rfl | rfl
      · exact fun c none => absurd none List.not_mem_nil
      · exact fun c member => List.mem_singleton.mp member ▸ rfl
    rw [found split, innerBody_title unbroken ending short, trim_append_blank spaces]
  · obtain ⟨front, behind, inner, split⟩ := @splitOnce_unopened _ _
      ('\n' :: (sourceLines draft ++ ['\n'])) unbroken opens
    have part : sourcesPart draft = sourcesBreak ++ '\n' :: (sourceLines draft ++ ['\n']) := rfl
    rw [part] at found
    rw [found split, innerBody_body unbroken, splitOnce_body inner]

section RoundTrip

structure Draft.Legible (draft : Draft) : Prop where
  titled : draft.title ≠ ""
  titleLine : '\n' ∉ draft.title.toList
  titleEnd : draft.title.toList.getLast? ≠ some '\r'
  body : BodyKept draft.title.toList draft.body.toList
  bodyLines : ∀ line ∈ behindSources (lines (draft.body.toList ++ ['\n'])),
    parseRenderedCitation line = none
  citations : ∀ citation ∈ draft.citations, citation.Legible

def publishedEntry (draft : Draft) (operationId : String) (text : List Char) : ManifestEntry :=
  manifestEntry draft operationId (digest (Utf8.encoded text)) .published

def ReadsBack (draft : Draft) (operationId : String) : Prop :=
  ∃ text, renderPublishedMarkdown draft = .ok text ∧
    validateNote (Utf8.encoded text) (publishedEntry draft operationId text) = .ok () ∧
    ∃ indexed, parseIndexedEntry (Utf8.encoded text)
        (publishedEntry draft operationId text).imported = .ok indexed ∧
      indexed.title = draft.title ∧
      indexed.body = String.ofList (trim isWhiteSpace draft.body.toList) ∧
      indexed.citations = sortedCitations draft.citations

/-- What the constructor accepts. -/
structure Draft.Accepted (draft : Draft) : Prop where
  project : validateSegment draft.projectId = .ok ()
  entry : validateSegment draft.entryId = .ok ()
  cited : draft.citations ≠ []
  named : ∀ citation ∈ draft.citations, citation.sourceVersionId ≠ "" ∧ citation.location ≠ ""

theorem Draft.new_eq_ok {projectId entryId title body : String} {citations : List Citation}
    (accepted : Draft.new projectId entryId title body citations = .ok draft) : draft.Accepted := by
  simp only [Draft.new, check_eq_ok, refuse_eq_ok, List.any_eq_true, Bool.or_eq_true,
    decide_eq_true_eq, not_exists, not_and, not_or] at accepted
  obtain ⟨project, entry, cited, named, built⟩ := accepted
  obtain rfl := Except.ok.inj built
  exact ⟨project, entry, cited, named⟩

variable {operationId : String}

def publishedText (draft : Draft) : List Char := noteText draft PublicationState.published.asStr

theorem Draft.Accepted.framed (accepted : draft.Accepted) : Framed draft PublicationState.published.asStr :=
  ⟨accepted.project, accepted.entry, by decide⟩

theorem Draft.Accepted.rendered (accepted : draft.Accepted) :
    renderPublishedMarkdown draft = .ok (publishedText draft) := by
  simp only [renderPublishedMarkdown, renderMarkdownAs, accepted.project, accepted.entry, ok_bind,
    refuse_of_not accepted.cited]
  rfl

theorem parseIndexedEntry_eq_ok {text : List Char} {entry : ImportedEntry} {indexed : IndexedEntry} :
    parseIndexedEntry (Utf8.encoded text) entry = .ok indexed ↔
      ∃ title, findTitle text = some title ∧ renderedCitations text ≠ [] ∧
        indexed = ⟨entry.memoryEntryId, entry.projectId, String.ofList title,
          String.ofList (findBody text), renderedCitations text, entry.contentDigest⟩ := by
  rw [parseIndexedEntry, decodeText_encoded]
  simp only [Option.elim_some, ok_bind]
  cases findTitle text with
  | none => exact ⟨nofun, nofun⟩
  | some title =>
    simp only [Option.elim_some, ok_bind, check_eq_ok, refuse_eq_ok, Option.some_inj, exists_eq_left']
    exact and_congr_right' ⟨fun same => (Except.ok.inj same).symm,
      fun same => congrArg Except.ok same.symm⟩

theorem infix_intercalate {separator line : List Char} {ls : List (List Char)} (member : line ∈ ls) :
    line <:+: separator.intercalate ls := by
  induction ls with
  | nil => cases member
  | cons first ls ih =>
    cases ls with
    | nil =>
      obtain rfl := List.mem_singleton.mp member
      rw [List.intercalate_singleton]
    | cons second ls =>
      rw [List.intercalate_cons_cons]
      rcases List.mem_cons.mp member with rfl | later
      · exact ⟨[], separator ++ separator.intercalate (second :: ls), by simp⟩
      · exact (ih later).trans ⟨first ++ separator, [], by simp⟩

theorem validateNote_published (contentDigest : String) :
    validateNote (Utf8.encoded (publishedText draft))
        (manifestEntry draft operationId contentDigest .published) = .ok () ↔
      sortedTexts ((renderedCitations (publishedText draft)).map (·.sourceVersionId)) =
        sortedTexts (draft.citations.map (·.sourceVersionId)) := by
  have front : ∀ line ∈ frontLines draft PublicationState.published.asStr,
      line <:+: publishedText draft := by
    intro line member
    rw [publishedText, noteText_eq]
    exact (infix_intercalate member).trans (List.prefix_append _ _).isInfix
  have opens : "---\n".toList <+: publishedText draft := by
    have rule : "---\n".toList = "---".toList ++ ['\n'] := by simp
    rw [rule, publishedText, noteText_eq, frontLines, List.intercalate_cons_cons]
    exact (List.prefix_append _ _).trans (List.prefix_append _ _)
  have required : ∀ line ∈ requiredLines (manifestEntry draft operationId contentDigest .published),
      line <:+: publishedText draft := by
    have published : "state: published".toList =
        "state: ".toList ++ PublicationState.published.asStr.toList := by rfl
    rw [requiredLines, published]
    simp only [List.forall_mem_cons]
    refine ⟨front _ ?_, front _ ?_, front _ ?_, front _ ?_, ?_,
      fun line none => absurd none List.not_mem_nil⟩
    · exact .tail _ (.head _)
    · exact .tail _ (.tail _ (.head _))
    · exact .tail _ (.tail _ (.tail _ (.head _)))
    · exact .tail _ (.tail _ (.tail _ (.tail _ (.head _))))
    · rw [publishedText, noteText_eq, sourcesPart]
      refine ⟨['\n'].intercalate (frontLines draft PublicationState.published.asStr) ++
        ('\n' :: '\n' :: ['#', ' '] ++ (draft.title.toList ++ '\n' :: '\n' ::
          (draft.body.toList ++ ['\n', '\n']))), '\n' :: (sourceLines draft ++ ['\n']), ?_⟩
      simp only [List.append_assoc, List.cons_append, List.nil_append]
  have framed : ¬ (¬ "---\n".toList <+: publishedText draft ∨
      ∃ line ∈ requiredLines (manifestEntry draft operationId contentDigest .published),
        ¬ line <:+: publishedText draft) := by
    rintro (other | ⟨line, member, missing⟩)
    · exact other opens
    · exact missing (required line member)
  have sources : sortedTexts (manifestEntry draft operationId contentDigest .published).sourceCitations =
      sortedTexts (draft.citations.map (·.sourceVersionId)) := sortDedup_idem id _
  rw [validateNote, decodeText_encoded]
  simp only [refuse_of_not framed, ok_bind]
  rw [refuse_eq_ok, not_not, sources]

theorem findTitle_eq_iff (accepted : draft.Accepted) :
    findTitle (publishedText draft) = some draft.title.toList ↔
      draft.title ≠ "" ∧ '\n' ∉ draft.title.toList ∧ draft.title.toList.getLast? ≠ some '\r' := by
  have present : draft.title.toList ≠ [] ↔ draft.title ≠ "" := not_congr (by simp)
  rw [publishedText, findTitle_noteText accepted.framed, Option.filter_eq_some_iff, Option.some_inj,
    firstLine_eq_iff, decide_eq_true_eq, present, and_comm]

theorem findBody_published (accepted : draft.Accepted) (unbroken : '\n' ∉ draft.title.toList) :
    findBody (publishedText draft) = trim isWhiteSpace draft.body.toList ↔
      BodyKept draft.title.toList draft.body.toList := by
  rw [publishedText]
  exact findBody_eq_iff accepted.framed unbroken

theorem renderedCitations_published (accepted : draft.Accepted) (unbroken : '\n' ∉ draft.title.toList) :
    renderedCitations (publishedText draft) = sortedCitations draft.citations ↔
      (∀ citation ∈ draft.citations, citation.Legible) ∧
        ∀ line ∈ behindSources (lines (draft.body.toList ++ ['\n'])),
          parseRenderedCitation line = none := by
  rw [publishedText]
  exact renderedCitations_eq_iff accepted.framed unbroken accepted.cited accepted.named

theorem readsBack_iff (accepted : draft.Accepted) :
    ReadsBack draft operationId ↔ findTitle (publishedText draft) = some draft.title.toList ∧
      findBody (publishedText draft) = trim isWhiteSpace draft.body.toList ∧
      renderedCitations (publishedText draft) = sortedCitations draft.citations := by
  rw [ReadsBack, accepted.rendered]
  constructor
  · rintro ⟨text, rendered, _, indexed, parsed, titled, body, cited⟩
    have same := Except.ok.inj rendered
    subst same
    obtain ⟨title, found, _, rfl⟩ := parseIndexedEntry_eq_ok.mp parsed
    dsimp only at titled body cited
    refine ⟨?_, String.ofList_injective body, cited⟩
    rw [found, ← titled, String.toList_ofList (l := title)]
  · rintro ⟨titled, body, cited⟩
    have some_ : renderedCitations (publishedText draft) ≠ [] := by
      rw [cited]
      exact fun none => accepted.cited (sortOn_eq_nil.mp none)
    have valid : validateNote (Utf8.encoded (publishedText draft))
        (publishedEntry draft operationId (publishedText draft)) = .ok () := by
      rw [publishedEntry, validateNote_published, cited]
      exact sortDedup_congr Function.injective_id ((sortOn_perm Citation.order draft.citations).map _)
    refine ⟨publishedText draft, rfl, valid, _,
      parseIndexedEntry_eq_ok.mpr ⟨draft.title.toList, titled, some_, rfl⟩, ?_⟩
    dsimp only
    exact ⟨String.ofList_toList, congrArg String.ofList body, cited⟩

theorem readsBack_iff_legible (accepted : draft.Accepted) :
    ReadsBack draft operationId ↔ draft.Legible := by
  rw [readsBack_iff accepted, findTitle_eq_iff accepted]
  constructor
  · rintro ⟨⟨present, unbroken, ending⟩, body, cited⟩
    obtain ⟨legible, nothing⟩ := (renderedCitations_published accepted unbroken).mp cited
    exact ⟨present, unbroken, ending, (findBody_published accepted unbroken).mp body, nothing, legible⟩
  · intro legible
    exact ⟨⟨legible.titled, legible.titleLine, legible.titleEnd⟩,
      (findBody_published accepted legible.titleLine).mpr legible.body,
      (renderedCitations_published accepted legible.titleLine).mpr
        ⟨legible.citations, legible.bodyLines⟩⟩

/-- A published note is read back as it was written exactly when its draft is legible. -/
theorem notes_read_back_iff {projectId entryId title body : String} {citations : List Citation}
    (accepted : Draft.new projectId entryId title body citations = .ok draft) (operationId : String) :
    ReadsBack draft operationId ↔ draft.Legible :=
  readsBack_iff_legible (Draft.new_eq_ok accepted)

/-- A draft with one citation, of a page and the part of it that is meant. -/
def citingDraft (location : String) : Draft :=
  ⟨"project", "note", "Findings", "The tide tables agree.", [⟨"atlas", location⟩], .draft⟩

theorem citingDraft_new (location : String) (some_ : location ≠ "") :
    Draft.new "project" "note" "Findings" "The tide tables agree." [⟨"atlas", location⟩] =
      .ok (citingDraft location) := by
  have project : validateSegment "project" = .ok () := by rfl
  have entry : validateSegment "note" = .ok () := by rfl
  simp [Draft.new, citingDraft, project, entry, ok_bind, refuse, some_]

theorem plainPage_reads_back :
    Draft.new "project" "note" "Findings" "The tide tables agree." [⟨"atlas", "page 3"⟩] =
        .ok (citingDraft "page 3") ∧ ReadsBack (citingDraft "page 3") "publication" := by
  have accepted := citingDraft_new "page 3" (by decide)
  refine ⟨accepted, (notes_read_back_iff accepted "publication").mpr ?_⟩
  exact ⟨by decide, by decide, by decide, by decide, by decide,
    fun citation member => List.mem_singleton.mp member ▸
      ⟨by decide, by decide, by decide⟩⟩

theorem parenthesis_lost :
    ∃ draft, Draft.new "project" "note" "Findings" "The tide tables agree."
        [⟨"atlas", "page 3 (appendix)"⟩] = .ok draft ∧ ¬ ReadsBack draft "publication" := by
  have accepted := citingDraft_new "page 3 (appendix)" (by decide)
  refine ⟨_, accepted, fun readsBack => ?_⟩
  have legible := (readsBack_iff_legible (Draft.new_eq_ok accepted)).mp readsBack
  exact (legible.citations _ List.mem_cons_self).unopened (by decide)

end RoundTrip

end Boreal.Memory
