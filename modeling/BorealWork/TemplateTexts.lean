/- The texts of a template: which of them validation accepts, and what substitution makes of those. -/
import BorealWork.TemplateDryRun

namespace Boreal.Templates
open Checks Drain

/-- Literals without braces of either kind, and placeholders of declared parameters between them. A text is
read from its front: no literal ends within the opening braces, no name within the closing ones. -/
inductive Written (params : List String) : List Char → List Piece → Prop
  | literal (text : List Char) (unopened : ¬ openingBraces <:+: text) (unclosed : ¬ closingBraces <:+: text) :
      Written params text [.literal text]
  | placeholder (front inner rest : List Char) (more : List Piece)
      (unopened : ¬ openingBraces <:+: front ++ openingBraces.dropLast)
      (unclosed : ¬ closingBraces <:+: front)
      (whole : ¬ closingBraces <:+: inner ++ closingBraces.dropLast)
      (declared : placeholderName inner ∈ params) (written : Written params rest more) :
      Written params (front ++ openingBraces ++ (inner ++ closingBraces ++ rest))
        (.literal front :: .placeholder (placeholderName inner) :: more)

/-- Closing braces stand in front of a placeholder and belong to none. -/
def Stray (text : List Char) : Prop :=
  ∃ literal, .literal literal ∈ (pieces text).dropLast ∧ closingBraces <:+: literal

section Reading

variable {params : List String} {text : List Char} {ps : List Piece}

theorem pieces_last (unopened : ¬ openingBraces <:+: text) : pieces text = [.literal text] := by
  rw [pieces]
  split
  · rfl
  · rename_i front behind opened
    rw [Lines.splitOnce_eq_none.mpr unopened] at opened
    cases opened

theorem pieces_placeholder {front behind inner rest : List Char}
    (opened : Lines.splitOnce openingBraces text = some (front, behind))
    (closed : Lines.splitOnce closingBraces behind = some (inner, rest)) :
    pieces text = .literal front :: .placeholder (placeholderName inner) :: pieces rest := by
  rw [pieces]
  split
  · rename_i unopened
    rw [opened] at unopened
    cases unopened
  · rename_i front' behind' opened'
    rw [opened] at opened'
    cases opened'
    split
    · rename_i unclosed
      rw [closed] at unclosed
      cases unclosed
    · rename_i inner' rest' closed'
      rw [closed] at closed'
      cases closed'
      rfl

theorem pieces_ne_nil (text : List Char) : pieces text ≠ [] := by
  rw [pieces]
  split
  · exact List.cons_ne_nil _ _
  · split <;> exact List.cons_ne_nil _ _

theorem validatePlaceholders_last (unopened : ¬ openingBraces <:+: text) :
    validatePlaceholders params text = .ok () ↔ ¬ closingBraces <:+: text := by
  rw [validatePlaceholders]
  split
  · rw [refuse_eq_ok, not_not, Lines.splitOnce_eq_none]
  · rename_i front behind opened
    rw [Lines.splitOnce_eq_none.mpr unopened] at opened
    cases opened

theorem validatePlaceholders_placeholder {front behind inner rest : List Char}
    (opened : Lines.splitOnce openingBraces text = some (front, behind))
    (closed : Lines.splitOnce closingBraces behind = some (inner, rest)) :
    validatePlaceholders params text = .ok () ↔
      placeholderName inner ∈ params ∧ validatePlaceholders params rest = .ok () := by
  rw [validatePlaceholders]
  split
  · rename_i unopened
    rw [opened] at unopened
    cases unopened
  · rename_i front' behind' opened'
    rw [opened] at opened'
    cases opened'
    split
    · rename_i unclosed
      rw [closed] at unclosed
      cases unclosed
    · rename_i inner' rest' closed'
      rw [closed] at closed'
      cases closed'
      by_cases declared : placeholderName inner ∈ params
      · rw [if_neg (not_not.mpr declared), and_iff_right declared]
      · rw [if_pos declared]
        exact iff_of_false (fun accepted => by cases accepted) fun both => declared both.1

theorem validatePlaceholders_unterminated {front behind : List Char}
    (opened : Lines.splitOnce openingBraces text = some (front, behind))
    (unclosed : Lines.splitOnce closingBraces behind = none) :
    validatePlaceholders params text ≠ .ok () := by
  rw [validatePlaceholders]
  split
  · rename_i unopened
    rw [opened] at unopened
    cases unopened
  · rename_i front' behind' opened'
    rw [opened] at opened'
    cases opened'
    split
    · intro accepted
      cases accepted
    · rename_i inner' rest' closed'
      rw [unclosed] at closed'
      cases closed'

theorem Written.accepted (written : Written params text ps) :
    validatePlaceholders params text = .ok () ∧ pieces text = ps := by
  induction written with
  | literal text unopened unclosed =>
    exact ⟨(validatePlaceholders_last unopened).mpr unclosed, pieces_last unopened⟩
  | placeholder front inner rest more unopened unclosed whole declared written ih =>
    have opened := (Lines.splitOnce_eq_some (by decide)).mpr
      ⟨(rfl : front ++ openingBraces ++ (inner ++ closingBraces ++ rest) = _), unopened⟩
    have closed := (Lines.splitOnce_eq_some (by decide)).mpr
      ⟨(rfl : inner ++ closingBraces ++ rest = _), whole⟩
    refine ⟨(validatePlaceholders_placeholder opened closed).mpr ⟨declared, ih.1⟩, ?_⟩
    rw [pieces_placeholder opened closed, ih.2]

theorem written_of_accepted (accepted : validatePlaceholders params text = .ok ()) (neat : ¬ Stray text) :
    Written params text (pieces text) := by
  fun_induction pieces text with
  | case1 rest opened =>
    have unopened := Lines.splitOnce_eq_none.mp opened
    exact .literal rest unopened ((validatePlaceholders_last unopened).mp accepted)
  | case2 rest front behind opened closed =>
    exact absurd accepted (validatePlaceholders_unterminated opened closed)
  | case3 rest front behind opened inner rest' closed ih =>
    obtain ⟨declared, accepted'⟩ := (validatePlaceholders_placeholder opened closed).mp accepted
    rw [Stray, pieces_placeholder opened closed, List.dropLast_cons_of_ne_nil (List.cons_ne_nil _ _),
      List.dropLast_cons_of_ne_nil (pieces_ne_nil rest')] at neat
    have neat' : ¬ Stray rest' := by
      rintro ⟨literal, member, stray⟩
      exact neat ⟨literal, List.mem_cons_of_mem _ (List.mem_cons_of_mem _ member), stray⟩
    have unclosed : ¬ closingBraces <:+: front := fun stray => neat ⟨front, List.mem_cons_self, stray⟩
    obtain ⟨rfl, unopened⟩ := (Lines.splitOnce_eq_some (by decide)).mp opened
    obtain ⟨rfl, whole⟩ := (Lines.splitOnce_eq_some (by decide)).mp closed
    exact .placeholder front inner rest' _ unopened unclosed whole declared (ih accepted' neat')

end Reading

section Substitution

variable {params : List String} {values : Std.TreeMap String String} {text : List Char}

def Covers (values : Std.TreeMap String String) (text : List Char) : Prop :=
  ∀ name, .placeholder name ∈ pieces text → ∃ value, values[name]? = some value

theorem substituted_last (unopened : ¬ openingBraces <:+: text) : substituted values text = .ok text := by
  rw [substituted]
  split
  · rfl
  · rename_i front behind opened
    rw [Lines.splitOnce_eq_none.mpr unopened] at opened
    cases opened

theorem substituted_placeholder {front behind inner rest output : List Char} {value : String}
    (opened : Lines.splitOnce openingBraces text = some (front, behind))
    (closed : Lines.splitOnce closingBraces behind = some (inner, rest))
    (bound : values[placeholderName inner]? = some value) (done : substituted values rest = .ok output) :
    substituted values text = .ok (front ++ value.toList ++ output) := by
  rw [substituted]
  split
  · rename_i unopened
    rw [opened] at unopened
    cases unopened
  · rename_i front' behind' opened'
    rw [opened] at opened'
    cases opened'
    split
    · rename_i unclosed
      rw [closed] at unclosed
      cases unclosed
    · rename_i inner' rest' closed'
      rw [closed] at closed'
      cases closed'
      rw [bound]
      simp only [done]
      rfl

theorem substituted_of_accepted (accepted : validatePlaceholders params text = .ok ())
    (covers : Covers values text) :
    substituted values text = .ok ((pieces text).flatMap (Piece.written fun name => values[name]?)) := by
  fun_induction pieces text with
  | case1 rest opened =>
    rw [substituted_last (Lines.splitOnce_eq_none.mp opened)]
    simp [Piece.written]
  | case2 rest front behind opened closed =>
    exact absurd accepted (validatePlaceholders_unterminated opened closed)
  | case3 rest front behind opened inner rest' closed ih =>
    obtain ⟨-, accepted'⟩ := (validatePlaceholders_placeholder opened closed).mp accepted
    rw [Covers, pieces_placeholder opened closed] at covers
    obtain ⟨value, bound⟩ := covers _ (List.mem_cons_of_mem _ List.mem_cons_self)
    have covers' : Covers values rest' := fun name member =>
      covers name (List.mem_cons_of_mem _ (List.mem_cons_of_mem _ member))
    rw [substituted_placeholder opened closed bound (ih accepted' covers')]
    simp [Piece.written, bound]

/-- The text behind a substitution: the literals, and the values of the placeholders between them. -/
def rendering (values : Std.TreeMap String String) (text : String) : String :=
  String.ofList ((pieces text.toList).flatMap (Piece.written fun name => values[name]?))

theorem substitute_of_accepted {text : String} (accepted : validatePlaceholders params text.toList = .ok ())
    (covers : Covers values text.toList) :
    substitute text values =
      if isBlank (rendering values text) then
        .error (.invalid "rendered work title/description must not be empty")
      else .ok (rendering values text) := by
  rw [substitute, substituted_of_accepted accepted covers, ok_bind, rendering, isBlank, String.toList_ofList]
  split_ifs with blank
  · rw [blank]
    rfl
  · rw [Bool.eq_false_iff.mpr blank]
    rfl

/-- A text without stray closing braces is accepted exactly when it is a sequence of literals and declared
placeholders; an accepted text becomes its literals and values in order, unless that is blank. -/
theorem placeholders_spec (params : List String) (text : String) :
    (¬ Stray text.toList →
      (validatePlaceholders params text.toList = .ok () ↔ ∃ ps, Written params text.toList ps)) ∧
    (∀ ps, Written params text.toList ps →
      validatePlaceholders params text.toList = .ok () ∧ pieces text.toList = ps) ∧
    (validatePlaceholders params text.toList = .ok () → ∀ values, Covers values text.toList →
      substitute text values =
        if isBlank (rendering values text) then
          .error (.invalid "rendered work title/description must not be empty")
        else .ok (rendering values text)) := by
  refine ⟨fun neat => ⟨fun accepted => ⟨_, written_of_accepted accepted neat⟩, ?_⟩,
    fun ps written => written.accepted, fun accepted values covers => substitute_of_accepted accepted covers⟩
  rintro ⟨ps, written⟩
  exact written.accepted.1

theorem written_single : Written ["name"] "\x7b\x7b name \x7d\x7d".toList
    [.literal [], .placeholder "name", .literal []] :=
  .placeholder [] " name ".toList [] _ (by decide) (by decide) (by decide) (by decide)
    (.literal [] (by decide) (by decide))

theorem substitute_blank : validatePlaceholders ["name"] "\x7b\x7b name \x7d\x7d".toList = .ok () ∧
    Covers ((∅ : Std.TreeMap String String).insert "name" " ") "\x7b\x7b name \x7d\x7d".toList ∧
    substitute "\x7b\x7b name \x7d\x7d" ((∅ : Std.TreeMap String String).insert "name" " ") ≠
      .ok (rendering ((∅ : Std.TreeMap String String).insert "name" " ") "\x7b\x7b name \x7d\x7d") := by
  obtain ⟨accepted, read⟩ := written_single.accepted
  have bound : ((∅ : Std.TreeMap String String).insert "name" " ")["name"]? = some " " :=
    Lookup.getElem?_insert_self _ _ _
  have covers : Covers ((∅ : Std.TreeMap String String).insert "name" " ")
      "\x7b\x7b name \x7d\x7d".toList := by
    intro name member
    rw [read] at member
    simp only [List.mem_cons, reduceCtorEq, false_or, Piece.placeholder.injEq, List.not_mem_nil, or_false]
      at member
    exact ⟨" ", member ▸ bound⟩
  refine ⟨accepted, covers, ?_⟩
  have blank : isBlank (rendering ((∅ : Std.TreeMap String String).insert "name" " ")
      "\x7b\x7b name \x7d\x7d") = true := by
    rw [rendering, read]
    simp only [List.flatMap_cons, List.flatMap_nil, Piece.written, bound]
    decide +kernel
  rw [substitute_of_accepted accepted covers, if_pos blank]
  intro rendered
  cases rendered

end Substitution

end Boreal.Templates
