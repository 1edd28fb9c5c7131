/- What redaction leaves of a payload: its size, its credentials, and what a second redaction of the
stored text changes. -/
import BorealWork.Library.JsonEncoding
import BorealWork.StoreJournal

namespace Boreal.Store
open JsonValue JsonGrammar

theorem cutAt_append {limit : ℕ} {before : List Char} (fits : textSize before ≤ limit)
    (rest : List Char) : cutAt limit (before ++ rest) = before ++ cutAt (limit - textSize before) rest := by
  induction before generalizing limit with
  | nil => rfl
  | cons c before ih =>
    rw [textSize_cons] at fits
    rw [List.cons_append, cutAt, if_pos (by omega), ih (by omega), textSize_cons, Nat.sub_sub,
      List.cons_append]

theorem cutAt_split {limit : ℕ} {text : List Char} (long : limit < textSize text) :
    ∃ c after, text = cutAt limit text ++ c :: after ∧ textSize (cutAt limit text) ≤ limit ∧
      limit < textSize (cutAt limit text) + c.utf8Size := by
  induction text generalizing limit with
  | nil => exact absurd long (Nat.not_lt_zero _)
  | cons c text ih =>
    rw [textSize_cons] at long
    rw [cutAt]
    by_cases fits : c.utf8Size ≤ limit
    · obtain ⟨d, after, split, below, above⟩ := @ih (limit - c.utf8Size) (by omega)
      refine ⟨d, after, ?_, ?_, ?_⟩
      · rw [if_pos fits, List.cons_append, ← split]
      · rw [if_pos fits, textSize_cons]
        omega
      · rw [if_pos fits, textSize_cons]
        omega
    · refine ⟨c, text, ?_, ?_, ?_⟩
      · rw [if_neg fits, List.nil_append]
      · rw [if_neg fits]
        exact Nat.zero_le _
      · rw [if_neg fits, textSize_nil]
        omega

def mark : List Char := '…' :: "[truncated]".toList

theorem textSize_mark : textSize mark = 14 := by decide

/-- A four-byte character lies across the limit from as far in front of it as it can: the first
character of the mark takes the three bytes that it leaves. -/
def Straddles (text : String) : Prop :=
  ∃ before c after, text.toList = before ++ c :: after ∧ textSize before + 3 = maxStringBytes ∧
    c.utf8Size = 4

theorem redactString_long {text : String} (long : maxStringBytes < text.utf8ByteSize) :
    redactString text = String.ofList (cutAt maxStringBytes text.toList ++ mark) := by
  have same : "…[truncated]" = String.ofList mark := by decide
  rw [redactString, if_neg (not_le.mpr long), same, String.ofList_append]

theorem redactString_short {text : String} (short : text.utf8ByteSize ≤ maxStringBytes) :
    redactString text = text := if_pos short

theorem Straddles.long {text : String} (straddles : Straddles text) :
    maxStringBytes < text.utf8ByteSize := by
  obtain ⟨before, c, after, split, place, wide⟩ := straddles
  rw [utf8ByteSize_eq, split, textSize_append, textSize_cons]
  omega

theorem cut_room {text : String} (long : maxStringBytes < text.utf8ByteSize) :
    textSize (cutAt maxStringBytes text.toList) ≤ maxStringBytes ∧
    maxStringBytes ≤ textSize (cutAt maxStringBytes text.toList) + 3 ∧
    (textSize (cutAt maxStringBytes text.toList) + 3 = maxStringBytes ↔ Straddles text) := by
  rw [utf8ByteSize_eq] at long
  obtain ⟨c, after, split, below, above⟩ := cutAt_split long
  have narrow := c.utf8Size_le_four
  refine ⟨below, by omega, fun room => ?_, fun straddles => ?_⟩
  · exact ⟨_, c, after, split, room, by omega⟩
  · obtain ⟨before, d, rest, parts, place, wide⟩ := straddles
    have left : maxStringBytes - textSize before = 3 := by omega
    rw [parts, cutAt_append (by omega), left, cutAt, if_neg (by omega), List.append_nil]
    exact place

theorem redactString_twice {text : String} (long : maxStringBytes < text.utf8ByteSize) :
    redactString (redactString text) = String.ofList (cutAt maxStringBytes text.toList ++
      (cutAt (maxStringBytes - textSize (cutAt maxStringBytes text.toList)) mark ++ mark)) := by
  obtain ⟨below, near, _⟩ := cut_room long
  have again : maxStringBytes < (redactString text).utf8ByteSize := by
    rw [redactString_long long, utf8ByteSize_ofList, textSize_append, textSize_mark]
    omega
  rw [redactString_long again, redactString_long long, String.toList_ofList, cutAt_append below,
    List.append_assoc]

theorem redactString_settled {text : String} (settled : ¬ Straddles text) :
    redactString (redactString text) = redactString text := by
  by_cases long : maxStringBytes < text.utf8ByteSize
  · obtain ⟨below, near, room⟩ := cut_room long
    have first : '…'.utf8Size = 3 := rfl
    have less := mt room.mp settled
    rw [redactString_twice long, redactString_long long, mark, cutAt, if_neg (by omega), List.nil_append]
  · rw [redactString_short (not_lt.mp long), redactString_short (not_lt.mp long)]

theorem quotedLength_ofList (text : List Char) :
    quotedLength (String.ofList text) = 2 + (text.map escapedLength).sum := by
  rw [quotedLength, String.toList_ofList]

theorem quotedLength_straddles {text : String} (straddles : Straddles text) :
    quotedLength (redactString (redactString text)) = quotedLength (redactString text) + 3 := by
  have long := straddles.long
  obtain ⟨below, near, room⟩ := cut_room long
  have left : maxStringBytes - textSize (cutAt maxStringBytes text.toList) = 3 := by
    have := room.mpr straddles
    omega
  have first : cutAt 3 mark = ['…'] := by decide
  have wide : (['…'].map escapedLength).sum = 3 := by decide
  rw [redactString_twice long, redactString_long long, left, first, quotedLength_ofList,
    quotedLength_ofList, List.map_append, List.map_append, List.map_append, List.sum_append,
    List.sum_append, List.sum_append, wide]
  omega

section Values

variable {depth : ℕ}

theorem redactMembers_eq (depth : ℕ) (members : List (String × Value)) :
    redactMembers depth members = members.map fun member =>
      (member.1, if isSensitiveKey member.1 then .string "[REDACTED]"
        else redactValueAtDepth (depth + 1) member.2) := by
  induction members with
  | nil => rfl
  | cons member rest ih => rw [redactMembers, ih, List.map_cons]

/-- The marker behind the items that still fit. -/
def overflow (left : ℕ) (items : List Value) : List Value :=
  if left < items.length then [.string "[TRUNCATED:array_items]"] else []

theorem redactItems_eq (depth left : ℕ) (items : List Value) : redactItems depth left items =
    (items.take left).map (redactValueAtDepth (depth + 1)) ++ overflow left items := by
  induction items generalizing left with
  | nil => simp [redactItems, overflow]
  | cons item rest ih =>
    cases left with
    | zero => simp [redactItems, overflow]
    | succ left => simp [redactItems, overflow, ih]

theorem redactValueAtDepth_deep (deep : maxNestingDepth ≤ depth) (value : Value) :
    redactValueAtDepth depth value = .string "[REDACTED:depth_limit]" := by
  rw [redactValueAtDepth.eq_def, if_pos deep]

theorem redactValueAtDepth_string (shallow : depth < maxNestingDepth) (text : String) :
    redactValueAtDepth depth (.string text) = .string (redactString text) := by
  rw [redactValueAtDepth, if_neg (not_le.mpr shallow)]

theorem redactValueAtDepth_array (shallow : depth < maxNestingDepth) (items : List Value) :
    redactValueAtDepth depth (.array items) = .array (redactItems depth maxArrayItems items) := by
  rw [redactValueAtDepth, if_neg (not_le.mpr shallow)]

theorem redactValueAtDepth_object (shallow : depth < maxNestingDepth) (members : List (String × Value)) :
    redactValueAtDepth depth (.object members) = .object (redactMembers depth members) := by
  rw [redactValueAtDepth, if_neg (not_le.mpr shallow)]

theorem redactItems_twice (depth left : ℕ) (items : List Value) :
    redactItems depth left (redactItems depth left items) =
      (items.take left).map (fun item => redactValueAtDepth (depth + 1)
        (redactValueAtDepth (depth + 1) item)) ++ overflow left items := by
  induction items generalizing left with
  | nil => simp [redactItems, overflow]
  | cons item rest ih =>
    cases left with
    | zero => simp [redactItems, overflow]
    | succ left => simp [redactItems, overflow, ih]

theorem redactMembers_twice (depth : ℕ) (members : List (String × Value)) :
    redactMembers depth (redactMembers depth members) = members.map fun member =>
      (member.1, if isSensitiveKey member.1 then .string "[REDACTED]"
        else redactValueAtDepth (depth + 1) (redactValueAtDepth (depth + 1) member.2)) := by
  rw [redactMembers_eq, redactMembers_eq, List.map_map]
  refine List.map_congr_left fun member _ => ?_
  by_cases sensitive : isSensitiveKey member.1
  · simp [sensitive]
  · simp [sensitive]

inductive Reached : ℕ → Value → String → Prop
  | string {depth text} : depth < maxNestingDepth → Reached depth (.string text) text
  | item {depth items item text} : depth < maxNestingDepth → item ∈ items.take maxArrayItems →
      Reached (depth + 1) item text → Reached depth (.array items) text
  | member {depth members member text} : depth < maxNestingDepth → member ∈ members →
      isSensitiveKey member.1 = false → Reached (depth + 1) member.2 text →
      Reached depth (.object members) text

theorem joinedLength_le {before after : List ℕ} (length : before.length = after.length)
    (sum : before.sum ≤ after.sum) : joinedLength before ≤ joinedLength after := by
  simp only [joinedLength, length]
  omega

theorem joinedLength_lt {before after : List ℕ} (length : before.length = after.length)
    (sum : before.sum < after.sum) : joinedLength before < joinedLength after := by
  simp only [joinedLength, length]
  omega

theorem redactString_grows (text : String) :
    quotedLength (redactString text) ≤ quotedLength (redactString (redactString text)) := by
  by_cases straddles : Straddles text
  · rw [quotedLength_straddles straddles]
    exact Nat.le_add_right _ _
  · rw [redactString_settled straddles]

theorem encodedLength_array (items : List Value) : (Value.array items).encodedLength =
    2 + joinedLength (items.map Value.encodedLength) := by
  rw [Value.encodedLength, itemsLength_eq]

theorem encodedLength_object (members : List (String × Value)) :
    (Value.object members).encodedLength =
      2 + joinedLength (members.map fun member => quotedLength member.1 + 1 + member.2.encodedLength) := by
  rw [Value.encodedLength, membersLength_eq]

theorem redactValueAtDepth_grows (value : Value) : (redactValueAtDepth depth value).encodedLength ≤
    (redactValueAtDepth depth (redactValueAtDepth depth value)).encodedLength := by
  induction value using Value.nested generalizing depth with
  | null | bool _ | number _ =>
    by_cases deep : maxNestingDepth ≤ depth <;> simp [redactValueAtDepth, deep]
  | string text =>
    rcases le_or_gt maxNestingDepth depth with deep | shallow
    · rw [redactValueAtDepth_deep deep, redactValueAtDepth_deep deep]
    · rw [redactValueAtDepth_string shallow, redactValueAtDepth_string shallow]
      exact redactString_grows text
  | array items ih =>
    rcases le_or_gt maxNestingDepth depth with deep | shallow
    · rw [redactValueAtDepth_deep deep, redactValueAtDepth_deep deep]
    · rw [redactValueAtDepth_array shallow, redactValueAtDepth_array shallow, redactItems_twice,
        redactItems_eq, encodedLength_array, encodedLength_array]
      refine Nat.add_le_add_left (joinedLength_le (by simp) ?_) 2
      simp only [List.map_append, List.sum_append, List.map_map]
      refine Nat.add_le_add_right (List.sum_le_sum fun item member => ?_) _
      exact ih item (List.mem_of_mem_take member)
  | object members ih =>
    rcases le_or_gt maxNestingDepth depth with deep | shallow
    · rw [redactValueAtDepth_deep deep, redactValueAtDepth_deep deep]
    · rw [redactValueAtDepth_object shallow, redactValueAtDepth_object shallow, redactMembers_twice,
        redactMembers_eq, encodedLength_object, encodedLength_object]
      refine Nat.add_le_add_left (joinedLength_le (by simp) ?_) 2
      simp only [List.map_map]
      refine List.sum_le_sum fun member listed => ?_
      cases sensitive : isSensitiveKey member.1 with
      | true => simp [sensitive]
      | false =>
        simp only [Function.comp_apply, sensitive, Bool.false_eq_true, if_false]
        exact Nat.add_le_add_left (ih member listed) _

theorem Reached.grows {value : Value} {text : String} (reached : Reached depth value text)
    (straddles : Straddles text) : (redactValueAtDepth depth value).encodedLength <
      (redactValueAtDepth depth (redactValueAtDepth depth value)).encodedLength := by
  induction reached with
  | string shallow =>
    rw [redactValueAtDepth_string shallow, redactValueAtDepth_string shallow]
    change quotedLength _ < quotedLength _
    rw [quotedLength_straddles straddles]
    omega
  | @item depth items item text shallow kept _ ih =>
    rw [redactValueAtDepth_array shallow, redactValueAtDepth_array shallow, redactItems_twice,
      redactItems_eq, encodedLength_array, encodedLength_array]
    refine Nat.add_lt_add_left (joinedLength_lt (by simp) ?_) 2
    simp only [List.map_append, List.sum_append, List.map_map]
    refine Nat.add_lt_add_right (List.sum_lt_sum _ _ (fun other _ => ?_) ⟨item, kept, ih straddles⟩) _
    exact redactValueAtDepth_grows other
  | @member depth members member text shallow listed plain _ ih =>
    rw [redactValueAtDepth_object shallow, redactValueAtDepth_object shallow, redactMembers_twice,
      redactMembers_eq, encodedLength_object, encodedLength_object]
    refine Nat.add_lt_add_left (joinedLength_lt (by simp) ?_) 2
    simp only [List.map_map]
    refine List.sum_lt_sum _ _ (fun other _ => ?_) ⟨member, listed, ?_⟩
    · cases sensitive : isSensitiveKey other.1 with
      | true => simp [sensitive]
      | false =>
        simp only [Function.comp_apply, sensitive, Bool.false_eq_true, if_false]
        exact Nat.add_le_add_left (redactValueAtDepth_grows other.2) _
    · simp only [Function.comp_apply, plain, Bool.false_eq_true, if_false]
      exact Nat.add_lt_add_left (ih straddles) _

end Values

section Sizes

mutual

/-- The length of what the limits and the sensitive keys leave of a payload. -/
def keptLength (depth : ℕ) (value : Value) : ℕ :=
  if depth ≥ maxNestingDepth then quotedLength "[REDACTED:depth_limit]"
  else match value with
    | .object members => 2 + joinedLength (keptMembers depth members)
    | .array items => 2 + joinedLength (keptItems depth maxArrayItems items)
    | .string text =>
      if text.utf8ByteSize ≤ maxStringBytes then quotedLength text
      else 2 + ((cutAt maxStringBytes text.toList).map escapedLength).sum + 14
    | other => other.encodedLength

def keptItems (depth : ℕ) : ℕ → List Value → List ℕ
  | _, [] => []
  | 0, _ :: _ => [quotedLength "[TRUNCATED:array_items]"]
  | left + 1, item :: rest => keptLength (depth + 1) item :: keptItems depth left rest

def keptMembers (depth : ℕ) : List (String × Value) → List ℕ
  | [] => []
  | (key, value) :: rest =>
    (quotedLength key + 1 + if isSensitiveKey key then quotedLength "[REDACTED]"
      else keptLength (depth + 1) value) :: keptMembers depth rest

end

end Sizes

section Credentials

inductive Holds (key : String) (value : Value) : Value → Prop
  | here {members} : (key, value) ∈ members → Holds key value (.object members)
  | member {members member} : member ∈ members → Holds key value member.2 → Holds key value (.object members)
  | item {items item} : item ∈ items → Holds key value item → Holds key value (.array items)

mutual

/-- A payload without what it has under sensitive keys. -/
def withoutCredentials : Value → Value
  | .array items => .array (itemsWithout items)
  | .object members => .object (membersWithout members)
  | other => other

def itemsWithout : List Value → List Value
  | [] => []
  | item :: rest => withoutCredentials item :: itemsWithout rest

def membersWithout : List (String × Value) → List (String × Value)
  | [] => []
  | (key, value) :: rest =>
    (key, if isSensitiveKey key then .null else withoutCredentials value) :: membersWithout rest

end

end Credentials

section Limits

mutual

def Clean (depth : ℕ) : Value → Prop
  | .array items => depth < maxNestingDepth ∧ items.length ≤ maxArrayItems ∧ ItemsClean depth items
  | .object members => depth < maxNestingDepth ∧ MembersClean depth members
  | .string text => depth < maxNestingDepth ∧ text.utf8ByteSize ≤ maxStringBytes
  | _ => depth < maxNestingDepth

def ItemsClean (depth : ℕ) : List Value → Prop
  | [] => True
  | item :: rest => Clean (depth + 1) item ∧ ItemsClean depth rest

def MembersClean (depth : ℕ) : List (String × Value) → Prop
  | [] => True
  | (key, value) :: rest =>
    isSensitiveKey key = false ∧ Clean (depth + 1) value ∧ MembersClean depth rest

end

end Limits

theorem le_joinedLength {length : ℕ} {lengths : List ℕ} (member : length ∈ lengths) :
    length ≤ joinedLength lengths :=
  (List.le_sum_of_mem member).trans (Nat.le_add_right _ _)

theorem Reached.fits {depth : ℕ} {value : Value} {text : String} (reached : Reached depth value text) :
    quotedLength (redactString text) ≤ (redactValueAtDepth depth value).encodedLength := by
  induction reached with
  | string shallow => rw [redactValueAtDepth_string shallow, Value.encodedLength]
  | @item depth items item text shallow kept _ ih =>
    rw [redactValueAtDepth_array shallow, redactItems_eq, encodedLength_array]
    refine ih.trans ((le_joinedLength ?_).trans (Nat.le_add_left _ _))
    exact List.mem_map_of_mem (List.mem_append_left _ (List.mem_map_of_mem kept))
  | @member depth members member text shallow listed plain _ ih =>
    rw [redactValueAtDepth_object shallow, redactMembers_eq, encodedLength_object, List.map_map]
    refine (ih.trans (Nat.le_add_left _ (quotedLength member.1 + 1))).trans
      ((le_joinedLength (List.mem_map.mpr ⟨member, listed, ?_⟩)).trans (Nat.le_add_left _ _))
    simp only [Function.comp_apply, plain, Bool.false_eq_true, if_false]

def noted (text : String) : Value := .object [("note", .string text)]

end Boreal.Store
