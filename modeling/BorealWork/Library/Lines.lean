/- Texts by lines and by separators: the lines of a text, the first and the last occurrence of a
separator, and trimming. -/
import Mathlib

namespace Lines

/-- A carriage return in front of the line break belongs to the break. -/
def dropCarriage (line : List Char) : List Char :=
  if line.getLast? = some '\r' then line.dropLast else line

def linesFrom (current : List Char) : List Char → List (List Char)
  | [] => if current = [] then [] else [current]
  | c :: rest =>
    if c = '\n' then dropCarriage current :: linesFrom [] rest else linesFrom (current ++ [c]) rest

def lines (text : List Char) : List (List Char) := linesFrom [] text

theorem dropCarriage_isPrefix (line : List Char) : dropCarriage line <+: line := by
  rw [dropCarriage]
  split_ifs
  · exact List.dropLast_prefix line
  · exact List.prefix_rfl

theorem dropCarriage_of_ne {line : List Char} (other : line.getLast? ≠ some '\r') :
    dropCarriage line = line := if_neg other

theorem dropCarriage_eq_self {line : List Char} : dropCarriage line = line ↔ line.getLast? ≠ some '\r' := by
  refine ⟨fun same carriage => ?_, dropCarriage_of_ne⟩
  rw [dropCarriage, if_pos carriage] at same
  have shorter := congrArg List.length same
  rw [List.length_dropLast] at shorter
  have empty : line = [] := List.length_eq_zero_iff.mp (by omega)
  rw [empty] at carriage
  cases carriage

theorem linesFrom_append (current text rest : List Char) :
    linesFrom current (text ++ '\n' :: rest) = linesFrom current (text ++ ['\n']) ++ lines rest := by
  induction text generalizing current with
  | nil => simp [linesFrom, lines]
  | cons c text ih =>
    rw [List.cons_append, List.cons_append, linesFrom, linesFrom]
    split_ifs
    · rw [ih, List.cons_append]
    · exact ih _

theorem lines_append (text rest : List Char) :
    lines (text ++ '\n' :: rest) = lines (text ++ ['\n']) ++ lines rest := linesFrom_append [] text rest

theorem linesFrom_line {current line : List Char} (unbroken : '\n' ∉ line) :
    linesFrom current (line ++ ['\n']) = [dropCarriage (current ++ line)] := by
  induction line generalizing current with
  | nil => simp [linesFrom]
  | cons c line ih =>
    rw [List.mem_cons, not_or] at unbroken
    rw [List.cons_append, linesFrom, if_neg (Ne.symm unbroken.1), ih unbroken.2, List.append_assoc,
      List.singleton_append]

theorem lines_line {line : List Char} (unbroken : '\n' ∉ line) :
    lines (line ++ ['\n']) = [dropCarriage line] := linesFrom_line unbroken

theorem lines_cons {line : List Char} (unbroken : '\n' ∉ line) (rest : List Char) :
    lines (line ++ '\n' :: rest) = dropCarriage line :: lines rest := by
  rw [lines_append, lines_line unbroken]
  rfl

theorem head?_lines (text rest : List Char) :
    ∃ behind, lines (text ++ '\n' :: rest) = dropCarriage (text.takeWhile (· ≠ '\n')) :: behind := by
  have unbroken : '\n' ∉ text.takeWhile (· ≠ '\n') := by
    intro member
    have := List.mem_takeWhile_imp member
    simp at this
  have split := List.takeWhile_append_dropWhile (p := (· ≠ '\n')) (l := text)
  cases remaining : text.dropWhile (· ≠ '\n') with
  | nil =>
    rw [remaining, List.append_nil] at split
    refine ⟨lines rest, ?_⟩
    rw [split]
    exact lines_cons (split ▸ unbroken) rest
  | cons c behind =>
    have newline : c = '\n' := by
      have := List.head?_dropWhile_not (· ≠ '\n') text
      rw [remaining] at this
      simpa using this
    refine ⟨lines (behind ++ '\n' :: rest), ?_⟩
    conv_lhs => rw [← split, remaining, newline, List.append_assoc, List.cons_append]
    exact lines_cons unbroken _

theorem lines_intercalate {ls : List (List Char)} (some_ : ls ≠ []) (unbroken : ∀ l ∈ ls, '\n' ∉ l)
    (rest : List Char) :
    lines (['\n'].intercalate ls ++ '\n' :: rest) = ls.map dropCarriage ++ lines rest := by
  induction ls with
  | nil => exact absurd rfl some_
  | cons l ls ih =>
    rw [List.forall_mem_cons] at unbroken
    cases ls with
    | nil => simpa using lines_cons unbroken.1 rest
    | cons m more =>
      have joined : ['\n'].intercalate (l :: m :: more) ++ '\n' :: rest =
          l ++ '\n' :: (['\n'].intercalate (m :: more) ++ '\n' :: rest) := by simp
      rw [joined, lines_cons unbroken.1, ih (List.cons_ne_nil m more) unbroken.2]
      rfl

theorem newline_not_mem_linesFrom {current text line : List Char} (unbroken : '\n' ∉ current)
    (member : line ∈ linesFrom current text) : '\n' ∉ line := by
  induction text generalizing current with
  | nil =>
    rw [linesFrom] at member
    split_ifs at member
    · cases member
    · rw [List.mem_singleton.mp member]
      exact unbroken
  | cons c text ih =>
    rw [linesFrom] at member
    split_ifs at member with break_
    · rcases List.mem_cons.mp member with rfl | later
      · exact fun inside => unbroken ((dropCarriage_isPrefix current).subset inside)
      · exact ih List.not_mem_nil later
    · refine ih ?_ member
      rw [List.mem_append, List.mem_singleton, not_or]
      exact ⟨unbroken, Ne.symm break_⟩

theorem newline_not_mem_lines {text line : List Char} (member : line ∈ lines text) : '\n' ∉ line :=
  newline_not_mem_linesFrom List.not_mem_nil member

def splitOnce (separator : List Char) : List Char → Option (List Char × List Char)
  | [] => if separator = [] then some ([], []) else none
  | c :: rest =>
    if separator.isPrefixOf (c :: rest) then some ([], (c :: rest).drop separator.length)
    else (splitOnce separator rest).map fun parts => (c :: parts.1, parts.2)

/-- The parts around the last occurrence of a separator that is not empty. -/
def rsplitOnce (separator : List Char) : List Char → Option (List Char × List Char)
  | [] => none
  | c :: rest => match rsplitOnce separator rest with
      | some (front, behind) => some (c :: front, behind)
      | none =>
        if separator.isPrefixOf (c :: rest) then some ([], (c :: rest).drop separator.length)
        else none

theorem splitOnce_here {separator : List Char} (text : List Char) :
    splitOnce separator (separator ++ text) = some ([], text) := by
  cases separator with
  | nil => cases text <;> simp [splitOnce]
  | cons c separator =>
    have prefixed : (c :: separator).isPrefixOf (c :: separator ++ text) = true :=
      List.isPrefixOf_iff_prefix.mpr (List.prefix_append _ _)
    rw [List.cons_append] at prefixed ⊢
    rw [splitOnce, if_pos prefixed, ← List.cons_append, List.drop_left]

theorem splitOnce_skip {separator skipped text : List Char}
    (absent : ∀ n < skipped.length, ¬ separator <+: (skipped ++ text).drop n) :
    splitOnce separator (skipped ++ text) =
      (splitOnce separator text).map fun parts => (skipped ++ parts.1, parts.2) := by
  induction skipped with
  | nil => simp
  | cons c skipped ih =>
    have here : ¬ separator.isPrefixOf (c :: (skipped ++ text)) = true := fun prefixed =>
      absent 0 (Nat.succ_pos _) (List.isPrefixOf_iff_prefix.mp prefixed)
    have behind : ∀ n < skipped.length, ¬ separator <+: (skipped ++ text).drop n :=
      fun n within => absent (n + 1) (Nat.succ_lt_succ within)
    rw [List.cons_append, splitOnce, if_neg here, ih behind, Option.map_map]
    rfl

theorem splitOnce_skip_of_notMem {c : Char} {separator skipped text : List Char}
    (missing : c ∉ skipped) :
    splitOnce (c :: separator) (skipped ++ text) =
      (splitOnce (c :: separator) text).map fun parts => (skipped ++ parts.1, parts.2) := by
  refine splitOnce_skip fun n within prefixed => missing ?_
  have first : (skipped ++ text).drop n = skipped[n] :: (skipped ++ text).drop (n + 1) := by
    rw [List.drop_eq_getElem_cons (by rw [List.length_append]; omega),
      List.getElem_append_left within]
  rw [first] at prefixed
  exact (List.cons_prefix_cons.mp prefixed).1 ▸ List.getElem_mem within

theorem splitOnce_intercalate {ls : List (List Char)} {separator rest : List Char} (some_ : ls ≠ [])
    (unbroken : ∀ l ∈ ls, l ≠ [] ∧ '\n' ∉ l) :
    splitOnce ('\n' :: '\n' :: separator)
        (['\n'].intercalate ls ++ ('\n' :: '\n' :: separator ++ rest)) =
      some (['\n'].intercalate ls, rest) := by
  induction ls with
  | nil => exact absurd rfl some_
  | cons l ls ih =>
    rw [List.forall_mem_cons] at unbroken
    cases ls with
    | nil =>
      have single : ['\n'].intercalate [l] = l := by simp
      rw [single, splitOnce_skip_of_notMem unbroken.1.2, splitOnce_here]
      simp
    | cons m more =>
      obtain ⟨c, m', rfl⟩ := List.exists_cons_of_ne_nil (unbroken.2 m List.mem_cons_self).1
      have solid : c ≠ '\n' := fun same =>
        (unbroken.2 _ List.mem_cons_self).2 (same ▸ List.mem_cons_self)
      have joined (behind : List Char) : ['\n'].intercalate (l :: (c :: m') :: more) ++ behind =
          l ++ (['\n'] ++ (['\n'].intercalate ((c :: m') :: more) ++ behind)) := by simp
      have whole := joined []
      rw [List.append_nil, List.append_nil] at whole
      rw [joined, whole, splitOnce_skip_of_notMem unbroken.1.2, splitOnce_skip,
        ih (List.cons_ne_nil _ more) unbroken.2]
      · rfl
      · intro n within prefixed
        obtain rfl : n = 0 := Nat.lt_one_iff.mp within
        obtain ⟨start, opens⟩ : ∃ start, ['\n'].intercalate ((c :: m') :: more) = c :: start := by
          cases more with
          | nil => exact ⟨m', by simp⟩
          | cons second more => exact ⟨m' ++ '\n' :: ['\n'].intercalate (second :: more), by simp⟩
        rw [opens] at prefixed
        exact solid (List.cons_prefix_cons.mp (List.cons_prefix_cons.mp prefixed).2).1.symm

theorem splitOnce_eq_none {separator text : List Char} :
    splitOnce separator text = none ↔ ¬ separator <:+: text := by
  induction text with
  | nil =>
    rw [splitOnce, List.infix_nil]
    split_ifs with empty
    · simp [empty]
    · simp [empty]
  | cons c rest ih =>
    rw [splitOnce, List.infix_cons_iff, ← List.isPrefixOf_iff_prefix, not_or, ← ih]
    split_ifs with here
    · simp [here]
    · simp [here]

theorem splitOnce_spec {separator text front behind : List Char}
    (split : splitOnce separator text = some (front, behind)) : text = front ++ separator ++ behind := by
  induction text generalizing front with
  | nil =>
    rw [splitOnce] at split
    split_ifs at split with empty
    cases split
    rw [empty]
    rfl
  | cons c rest ih =>
    rw [splitOnce] at split
    split_ifs at split with here
    · cases split
      obtain ⟨tail, whole⟩ := List.isPrefixOf_iff_prefix.mp here
      rw [← whole, List.drop_left, List.nil_append]
    · obtain ⟨⟨front', behind'⟩, inner, same⟩ := Option.map_eq_some_iff.mp split
      cases same
      rw [ih inner]
      rfl

theorem splitOnce_first {separator text front behind : List Char}
    (split : splitOnce separator text = some (front, behind)) :
    ∀ n < front.length, ¬ separator <+: text.drop n := by
  induction text generalizing front with
  | nil =>
    rw [splitOnce] at split
    split_ifs at split
    cases split
    exact fun n within => absurd within (Nat.not_lt_zero n)
  | cons c rest ih =>
    rw [splitOnce] at split
    split_ifs at split with here
    · cases split
      exact fun n within => absurd within (Nat.not_lt_zero n)
    · obtain ⟨⟨front', behind'⟩, inner, same⟩ := Option.map_eq_some_iff.mp split
      cases same
      intro n within
      cases n with
      | zero => rwa [List.drop_zero, ← List.isPrefixOf_iff_prefix]
      | succ n => exact ih inner n (Nat.lt_of_succ_lt_succ within)

theorem splitOnce_eq_some {separator text front behind : List Char} (solid : separator ≠ []) :
    splitOnce separator text = some (front, behind) ↔
      text = front ++ separator ++ behind ∧ ¬ separator <:+: front ++ separator.dropLast := by
  have last : separator.dropLast ++ [separator.getLast solid] = separator :=
    List.dropLast_append_getLast solid
  have size : separator.dropLast.length + 1 = separator.length := by
    rw [List.length_dropLast, Nat.sub_add_cancel (List.length_pos_iff.mpr solid)]
  have whole : front ++ separator ++ behind =
      (front ++ separator.dropLast) ++ separator.getLast solid :: behind := by
    rw [← List.singleton_append, ← List.append_assoc, List.append_assoc front separator.dropLast, last]
  constructor
  · intro split
    refine ⟨splitOnce_spec split, ?_⟩
    rintro ⟨before, after, same⟩
    have within : before.length < front.length := by
      have lengths := congrArg List.length same
      simp only [List.length_append] at lengths
      omega
    refine splitOnce_first split before.length within ?_
    rw [splitOnce_spec split, whole, ← same, List.append_assoc, List.append_assoc, List.drop_left]
    exact List.prefix_append _ _
  · rintro ⟨rfl, absent⟩
    rw [List.append_assoc, splitOnce_skip, splitOnce_here, Option.map_some, List.append_nil]
    intro n within prefixed
    rw [← List.append_assoc, whole, List.drop_append_of_le_length
      (by rw [List.length_append]; omega)] at prefixed
    have inside : separator <+: (front ++ separator.dropLast).drop n := by
      refine List.prefix_of_prefix_length_le prefixed (List.prefix_append _ _) ?_
      rw [List.length_drop, List.length_append]
      omega
    exact absent (inside.isInfix.trans (List.drop_suffix n _).isInfix)

theorem splitOnce_append {separator text front behind : List Char}
    (split : splitOnce separator text = some (front, behind)) (more : List Char) :
    splitOnce separator (text ++ more) = some (front, behind ++ more) := by
  induction text generalizing front with
  | nil =>
    rw [splitOnce] at split
    split_ifs at split with empty
    cases split
    rw [empty, List.nil_append]
    exact splitOnce_here more
  | cons c rest ih =>
    rw [splitOnce] at split
    split_ifs at split with here
    · cases split
      obtain ⟨tail, whole⟩ := List.isPrefixOf_iff_prefix.mp here
      rw [← whole, List.drop_left, List.append_assoc]
      exact splitOnce_here (tail ++ more)
    · obtain ⟨⟨front', behind'⟩, inner, same⟩ := Option.map_eq_some_iff.mp split
      cases same
      have long : separator.length ≤ rest.length := by
        rw [splitOnce_spec inner, List.length_append, List.length_append]
        omega
      have still : ¬ separator.isPrefixOf (c :: (rest ++ more)) = true := by
        intro prefixed
        apply here
        rw [List.isPrefixOf_iff_prefix] at prefixed ⊢
        exact List.prefix_of_prefix_length_le prefixed (List.prefix_append (c :: rest) more)
          (long.trans (Nat.le_succ _))
      rw [List.cons_append, splitOnce, if_neg still, ih inner]
      rfl

theorem rsplitOnce_eq_none {separator text : List Char} (nonempty : separator ≠ []) :
    rsplitOnce separator text = none ↔ ¬ separator <:+: text := by
  induction text with
  | nil =>
    rw [rsplitOnce, List.infix_nil]
    simp [nonempty]
  | cons c rest ih =>
    rw [rsplitOnce, List.infix_cons_iff, ← List.isPrefixOf_iff_prefix, not_or, ← ih]
    cases rsplitOnce separator rest with
    | none =>
      by_cases here : separator.isPrefixOf (c :: rest) = true
      · simp [here]
      · simp [here]
    | some parts => simp

theorem rsplitOnce_eq_some {c : Char} {separator text front behind : List Char} :
    rsplitOnce (c :: separator) text = some (front, behind) ↔
      text = front ++ c :: separator ++ behind ∧ ¬ (c :: separator) <:+: separator ++ behind := by
  induction text generalizing front behind with
  | nil => simp [rsplitOnce]
  | cons d rest ih =>
    rw [rsplitOnce]
    cases later : rsplitOnce (c :: separator) rest with
    | some parts =>
      obtain ⟨front', behind'⟩ := parts
      obtain ⟨whole, last⟩ := ih.mp later
      constructor
      · intro same
        cases same
        exact ⟨by rw [whole]; rfl, last⟩
      · rintro ⟨whole', last'⟩
        cases front with
        | nil =>
          -- the occurrence found later would lie behind this one
          obtain ⟨rfl, tail⟩ := List.cons.inj whole'
          have inside : rest = separator ++ behind := tail
          refine absurd ?_ last'
          rw [← inside, whole]
          exact ⟨front', behind', rfl⟩
        | cons e front =>
          obtain ⟨rfl, tail⟩ := List.cons.inj whole'
          have same := later.symm.trans (ih.mpr ⟨tail, last'⟩)
          cases same
          rfl
    | none =>
      have absent := (rsplitOnce_eq_none (List.cons_ne_nil c separator)).mp later
      constructor
      · intro same
        dsimp only at same
        split_ifs at same with here
        cases same
        obtain ⟨tail, whole⟩ := List.isPrefixOf_iff_prefix.mp here
        rw [← whole, List.drop_left]
        refine ⟨rfl, fun inside => absent ?_⟩
        rw [List.cons_append] at whole
        exact (List.cons.inj whole).2 ▸ inside
      · rintro ⟨whole, last⟩
        cases front with
        | nil =>
          have here : (c :: separator).isPrefixOf (d :: rest) = true :=
            List.isPrefixOf_iff_prefix.mpr ⟨behind, whole.symm⟩
          dsimp only
          rw [if_pos here, whole, List.nil_append, List.drop_left]
        | cons e front =>
          obtain ⟨rfl, tail⟩ := List.cons.inj whole
          exact absurd ⟨front, behind, tail.symm⟩ absent

section Trimming

variable {α : Type*} {blank : α → Bool}

/-- What is left between blank characters at both ends. -/
def trim (blank : α → Bool) (text : List α) : List α := (text.dropWhile blank).rdropWhile blank

theorem filter_dropWhile (text : List α) :
    (text.dropWhile blank).filter (!blank ·) = text.filter (!blank ·) := by
  induction text with
  | nil => rfl
  | cons c text ih =>
    by_cases space : blank c = true
    · rw [List.dropWhile_cons_of_pos space, ih, List.filter_cons_of_neg (by simp [space])]
    · rw [List.dropWhile_cons_of_neg space]

theorem filter_trim (text : List α) : (trim blank text).filter (!blank ·) = text.filter (!blank ·) := by
  rw [trim, List.rdropWhile, List.filter_reverse, filter_dropWhile, ← List.filter_reverse,
    List.reverse_reverse, filter_dropWhile]

theorem trim_append_blank {text spaces : List α} (space : ∀ c ∈ spaces, blank c = true) :
    trim blank (text ++ spaces) = trim blank text := by
  have reversed : ∀ c ∈ spaces.reverse, blank c = true := fun c member =>
    space c (List.mem_reverse.mp member)
  have whole (text : List α) : (text ++ spaces).rdropWhile blank = text.rdropWhile blank := by
    rw [List.rdropWhile, List.rdropWhile, List.reverse_append, List.dropWhile_append_of_pos reversed]
  by_cases all : ∀ c ∈ text, blank c = true
  · have empty : text.dropWhile blank = [] := List.dropWhile_eq_nil_iff.mpr all
    have nothing : (text ++ spaces).dropWhile blank = [] := by
      refine List.dropWhile_eq_nil_iff.mpr fun c member => ?_
      rcases List.mem_append.mp member with front | back
      · exact all c front
      · exact space c back
    rw [trim, trim, empty, nothing]
  · have solid : (text.dropWhile blank).isEmpty = false := by
      rw [List.isEmpty_eq_false_iff]
      exact fun empty => all (List.dropWhile_eq_nil_iff.mp empty)
    rw [trim, trim, List.dropWhile_append, solid]
    exact whole _

end Trimming

end Lines
