/- What a successful dry run of a template promises: its plan can be applied unless it is too long or
carries a NUL character. -/
import BorealWork.TemplateInstantiation

namespace Boreal.Templates
open Checks Deliverables Drain Orders
open Store (StoreError)

section Parents

variable {nodes : List TemplateNode}

theorem parentOf_leads (key : String) (parented : parentOf nodes key ≠ none) : key ∈ nodes.map (·.key) := by
  rw [parentOf] at parented
  cases found : nodes.find? (·.key = key) with
  | none => simp [found] at parented
  | some node =>
    have here := List.find?_some found
    have named := of_decide_eq_true here
    exact List.mem_map.mpr ⟨node, List.mem_of_find?_eq_some found, named⟩

theorem checkChain_founded {done done' : List String} {node : TemplateNode}
    (before : ∀ key ∈ done, Founded (parentOf nodes) key) (passed : checkChain nodes done node = .ok done') :
    (∀ key ∈ done', Founded (parentOf nodes) key) ∧ Founded (parentOf nodes) node.key := by
  have rests := @climb_rests _ _ (parentOf nodes) done (nodes.length + 1) node.key
  have stopped := @climb_stopped _ _ (parentOf nodes) done (nodes.map (·.key)) parentOf_leads
    (nodes.length + 1) (by rw [List.length_map]) node.key
  rw [checkChain] at passed
  cases reached : (climb (parentOf nodes) done (nodes.length + 1) node.key).current with
  | none =>
    simp only [reached, Except.ok.injEq] at passed
    obtain ⟨path, start⟩ := rests fun last same => absurd same (by rw [reached]; exact Option.not_mem_none last)
    exact ⟨passed ▸ List.forall_mem_append.mpr ⟨path, before⟩, start⟩
  | some key =>
    simp only [reached] at passed
    split_ifs at passed with looped
    simp only [climbStep, reached, ite_eq_left_iff, reduceCtorEq, imp_false, not_not] at stopped
    have here := before key (stopped.resolve_right looped)
    obtain ⟨path, start⟩ := rests fun last same => by
      rw [reached] at same
      exact Option.some.inj same ▸ here
    have later : ∀ key' ∈ key :: _ ++ done, Founded (parentOf nodes) key' :=
      List.forall_mem_append.mpr ⟨List.forall_mem_cons.mpr ⟨here, path⟩, before⟩
    exact ⟨Except.ok.inj passed ▸ later, start⟩

theorem checkChains_founded {l : List TemplateNode} {done done' : List String}
    (before : ∀ key ∈ done, Founded (parentOf nodes) key)
    (passed : l.foldlM (checkChain nodes) done = .ok done') :
    ∀ node ∈ l, Founded (parentOf nodes) node.key := by
  induction l generalizing done with
  | nil => exact List.forall_mem_nil _
  | cons node rest ih =>
    rw [List.foldlM_cons, bind_eq_ok] at passed
    obtain ⟨middle, first, later⟩ := passed
    obtain ⟨kept, here⟩ := checkChain_founded before first
    exact List.forall_mem_cons.mpr ⟨here, ih kept later⟩

theorem detectTemplateCycles_founded (passed : detectTemplateCycles nodes = .ok ()) :
    ∀ node ∈ nodes, Founded (parentOf nodes) node.key := by
  obtain ⟨done, checked, -⟩ := bind_eq_ok.mp passed
  exact checkChains_founded (List.forall_mem_nil _) checked

theorem parentOf_eq {node : TemplateNode} (distinct : (nodes.map (·.key)).Nodup) (member : node ∈ nodes) :
    parentOf nodes node.key = node.parent := by
  have found : nodes.find? (·.key = node.key) = some node := by
    cases lookup : nodes.find? (·.key = node.key) with
    | none => exact absurd (decide_eq_true rfl) (List.find?_eq_none.mp lookup node member)
    | some other =>
      have here := List.find?_some lookup
      have same := of_decide_eq_true here
      rw [List.inj_on_of_nodup_map distinct (List.mem_of_find?_eq_some lookup) member same]
  rw [parentOf, found, Option.bind_some]

end Parents

/-- What a text is made of: the stretches that stay, and the names that stand for values. -/
inductive Piece
  | literal (text : List Char)
  | placeholder (name : String)
  deriving DecidableEq

def pieces (rest : List Char) : List Piece :=
  match _opened : Lines.splitOnce openingBraces rest with
  | none => [.literal rest]
  | some (front, behind) => match _closed : Lines.splitOnce closingBraces behind with
      | none => [.literal rest]
      | some (inner, rest') => .literal front :: .placeholder (placeholderName inner) :: pieces rest'
termination_by rest.length
decreasing_by
  exact (splitOnce_shorter (by decide) _closed).trans (splitOnce_shorter (by decide) _opened)

def Piece.written (value : String → Option String) : Piece → List Char
  | .literal text => text
  | .placeholder name => ((value name).getD "").toList

theorem substituted_pieces {values : Std.TreeMap String String} {text output : List Char}
    (done : substituted values text = .ok output) :
    output = (pieces text).flatMap (Piece.written fun name => values[name]?) := by
  fun_induction pieces text generalizing output with
  | case1 rest opened =>
    rw [substituted] at done
    split at done
    · simp only [Except.ok.injEq] at done
      simp [Piece.written, done]
    · rename_i front behind opened'
      rw [opened] at opened'
      cases opened'
  | case2 rest front behind opened closed =>
    rw [substituted] at done
    split at done
    · rename_i opened'
      rw [opened] at opened'
      cases opened'
    · rename_i front' behind' opened'
      rw [opened] at opened'
      cases opened'
      split at done
      · cases done
      · rename_i closed'
        rw [closed] at closed'
        cases closed'
  | case3 rest front behind opened inner rest' closed ih =>
    rw [substituted] at done
    split at done
    · rename_i opened'
      rw [opened] at opened'
      cases opened'
    · rename_i front' behind' opened'
      rw [opened] at opened'
      cases opened'
      split at done
      · cases done
      · rename_i inner' rest'' closed'
        rw [closed] at closed'
        cases closed'
        split at done
        · cases done
        · rename_i value found
          obtain ⟨tail, later, same⟩ := bind_eq_ok.mp done
          cases same
          rw [ih later]
          simp [Piece.written, found]

section Values

variable {supplied : Std.TreeMap String String}

/-- The value that a dry run puts in for a name, read off the declarations and what was supplied. -/
def boundValue (parameters : List TemplateParameter) (supplied : Std.TreeMap String String)
    (name : String) : Option String :=
  (parameters.find? (·.name = name)).bind fun parameter =>
    (supplied[parameter.name]?.or parameter.default).filter (!isBlank ·)

theorem bindParameters_spec {parameters : List TemplateParameter} {values values' : Std.TreeMap String String}
    (distinct : (parameters.map (·.name)).Nodup)
    (passed : parameters.foldlM (bindParameter supplied) values = .ok values') (name : String) :
    values'[name]? = (boundValue parameters supplied name).or values[name]? := by
  induction parameters generalizing values with
  | nil =>
    cases passed
    rfl
  | cons parameter rest ih =>
    rw [List.map_cons, List.nodup_cons] at distinct
    rw [List.foldlM_cons, bind_eq_ok] at passed
    obtain ⟨middle, first, later⟩ := passed
    rw [ih distinct.2 later, boundValue, boundValue, List.find?_cons]
    by_cases own : parameter.name = name
    · have absent : rest.find? (·.name = name) = none := by
        refine List.find?_eq_none.mpr fun other member same => ?_
        have same := of_decide_eq_true same
        exact distinct.1 (List.mem_map.mpr ⟨other, member, same.trans own.symm⟩)
      simp only [absent, own, decide_true, Option.bind_none, Option.none_or, Option.bind_some]
      rw [bindParameter, own] at first
      split at first
      · rename_i value bound
        cases first
        rw [bound, Lookup.getElem?_insert_self, Option.some_or]
      · rename_i missing
        split_ifs at first
        cases first
        rw [missing, Option.none_or]
    · have kept : middle[name]? = values[name]? := by
        rw [bindParameter] at first
        split at first
        · cases first
          rw [Lookup.getElem?_insert_ne _ _ own]
        · split_ifs at first
          cases first
          rfl
      simp only [own, decide_false, kept]

end Values

section Rendering

variable {unprintable : Char → Bool} {template : WorkTemplate} {supplied : Std.TreeMap String String}
  {plan : TemplatePlan} {values : Std.TreeMap String String}

/-- A text into which nothing brings a NUL character. -/
def Silent (template : WorkTemplate) (supplied : Std.TreeMap String String) (text : String) : Prop :=
  ∀ piece ∈ pieces text.toList, '\x00' ∉ piece.written (boundValue template.parameters supplied)

theorem substitute_spec {text output : String} (done : substitute text values = .ok output) :
    isBlank output = false ∧
      output.toList = (pieces text.toList).flatMap (Piece.written fun name => values[name]?) := by
  obtain ⟨letters, written, rest⟩ := bind_eq_ok.mp done
  rw [check_eq_ok, refuse_eq_ok, Bool.not_eq_true] at rest
  obtain ⟨solid, same⟩ := rest
  cases same
  rw [isBlank, String.toList_ofList]
  exact ⟨solid, substituted_pieces written⟩

/-- What rendering keeps of an item and what it computes. -/
structure Rendered (unprintable : Char → Bool) (values : Std.TreeMap String String)
    (item : TemplateWorkItem) (rendered : RenderedTemplateItem) : Prop where
  node : rendered.toTemplateNode = item.toTemplateNode
  kind : parseKind item.kind = .ok rendered.kind
  title : substitute item.title values = .ok rendered.title
  description : substitute item.description values = .ok rendered.description
  priority : rendered.priority = item.priority
  labels : rendered.labels = item.labels.map normalizeLabel
  profile : rendered.acceptanceProfile = item.acceptanceProfile
  deliverables : rendered.deliverables = item.deliverables.map TemplateDeliverableRequirement.toDomain
  inputs : item.inputs.mapM (TemplateInputArtifactRef.toDomain unprintable) = .ok rendered.inputs

theorem renderItem_spec {item : TemplateWorkItem} {rendered : RenderedTemplateItem}
    (done : renderItem unprintable values item = .ok rendered) : Rendered unprintable values item rendered := by
  obtain ⟨kind, parsed, done⟩ := bind_eq_ok.mp done
  obtain ⟨title, titled, done⟩ := bind_eq_ok.mp done
  obtain ⟨description, described, done⟩ := bind_eq_ok.mp done
  obtain ⟨dispatch, -, done⟩ := bind_eq_ok.mp done
  obtain ⟨inputs, read, same⟩ := bind_eq_ok.mp done
  cases same
  exact ⟨rfl, parsed, titled, described, rfl, rfl, rfl, rfl, read⟩

/-- What validation asks of one item, apart from a fresh key. -/
structure ItemAccepted (unprintable : Char → Bool) (item : TemplateWorkItem) : Prop where
  identified : validIdentifier item.key = true
  priority : item.priority ≤ 9
  profile : ∃ profile, resolveTemplateAcceptanceProfile item.acceptanceProfile = .ok profile
  deliverables : validateDeliverableRequirements
    (item.deliverables.map TemplateDeliverableRequirement.toDomain) = .ok ()
  inputs : ∀ inputs, item.inputs.mapM (TemplateInputArtifactRef.toDomain unprintable) = .ok inputs →
    ∀ first ∈ inputs.head?, validateInputArtifactRefs inputs first.projectId = .ok ()
  labelled : item.labels.length ≤ 64 ∧ (∀ label ∈ item.labels, labelToken (normalizeLabel label) = true) ∧
    (item.labels.map normalizeLabel).Nodup
  needs : item.dependencies.length ≤ 100 ∧ item.key ∉ item.dependencies ∧ item.dependencies.Nodup

theorem validateItem_spec {schemaVersion : ℕ} {seen : List String} {item : TemplateWorkItem}
    (passed : validateItem unprintable schemaVersion seen item = .ok ()) :
    item.key ∉ seen ∧ ItemAccepted unprintable item := by
  simp only [validateItem, check_eq_ok, refuse_eq_ok, discard_eq_ok, mapError_eq_ok, not_or, not_and,
    not_not, not_lt, Bool.not_eq_false] at passed
  obtain ⟨⟨identified, fresh⟩, -, -, priority, profile, -, deliverables, passed⟩ := passed
  obtain ⟨refs, read, passed⟩ := bind_eq_ok.mp passed
  simp only [check_eq_ok, refuse_eq_ok, option_forM_eq_ok, mapError_eq_ok, not_or, not_exists,
    not_and, not_not, not_lt, Bool.not_eq_false] at passed
  obtain ⟨inputs, ⟨few, tokens, single⟩, needs⟩ := passed
  refine ⟨fresh, identified, priority, profile, deliverables, ?_, ⟨few, tokens, single⟩, needs⟩
  intro inputs' read' first head
  rw [read] at read'
  cases read'
  exact inputs first head

/-- What validation asks of the places that an item refers to. -/
structure References (keys : List String) (item : TemplateNode) (kind : WorkKind) : Prop where
  parent : ∀ parent ∈ item.parent, parent ∈ keys
  dependencies : ∀ dependency ∈ item.dependencies, dependency ∈ keys
  sprint : kind = .sprint → item.parent ≠ none

theorem validateReferences_spec {keys : List String} {item : TemplateWorkItem} {kind : WorkKind}
    (parsed : parseKind item.kind = .ok kind) (passed : validateReferences keys item = .ok ()) :
    References keys item.toTemplateNode kind := by
  rw [validateReferences, parsed, ok_bind] at passed
  simp only [check_eq_ok, refuse_eq_ok, option_forM_eq_ok, forM_eq_ok, not_or, not_and, not_not] at passed
  obtain ⟨parent, dependencies, sprint⟩ := passed
  exact ⟨fun key member => (parent key member).1, dependencies, sprint⟩

structure DryRun (unprintable : Char → Bool) (template : WorkTemplate)
    (supplied : Std.TreeMap String String) (plan : TemplatePlan) (values : Std.TreeMap String String) :
    Prop where
  identity : isBlank plan.templateId = false ∧ plan.templateVersion ≠ 0 ∧ template.items ≠ []
  distinct : (template.items.map (·.key)).Nodup
  accepted : ∀ item ∈ template.items, ItemAccepted unprintable item
  references : ∀ item ∈ template.items,
    validateReferences (template.items.map (·.key)) item = .ok ()
  parents : detectTemplateCycles (template.items.map (·.toTemplateNode)) = .ok ()
  needs : detectDependencyCycles (template.items.map (·.toTemplateNode)) = .ok ()
  bound : ∀ name, values[name]? = boundValue template.parameters supplied name
  rendered : List.Forall₂ (Rendered unprintable values) template.items plan.rendered

theorem validateItem_fresh {schemaVersion : ℕ} (seen : List String) (item : TemplateWorkItem) :
    validateItem unprintable schemaVersion seen item = .ok () ↔
      item.key ∉ seen ∧ validateItem unprintable schemaVersion [] item = .ok () := by
  simp only [validateItem, check_eq_ok, refuse_eq_ok, not_or, List.not_mem_nil, not_false_eq_true, and_true]
  tauto

theorem validateParameter_fresh (seen : List String) (parameter : TemplateParameter) :
    validateParameter seen parameter = .ok () ↔
      parameter.name ∉ seen ∧ validIdentifier parameter.name = true := by
  rw [validateParameter, refuse_eq_ok, not_or, Bool.not_eq_false, and_comm]

theorem plan_spec (planned : template.plan unprintable supplied = .ok plan) :
    ∃ values, DryRun unprintable template supplied plan values := by
  obtain ⟨valid, planned⟩ := check_eq_ok.mp planned
  obtain ⟨-, planned⟩ := check_eq_ok.mp planned
  obtain ⟨values, bound, planned⟩ := bind_eq_ok.mp planned
  obtain ⟨rendered, drawn, same⟩ := bind_eq_ok.mp planned
  cases same
  simp only [WorkTemplate.validate, check_eq_ok, refuse_eq_ok, not_or,
    checkFresh_eq_ok validateParameter_fresh, checkFresh_eq_ok validateItem_fresh] at valid
  obtain ⟨-, ⟨blank, version, -, some_⟩, ⟨-, names, -⟩, ⟨accepted, distinct, -⟩, references, parents, needs, -⟩ :=
    valid
  refine ⟨values, ⟨by simpa using blank, version, some_⟩, distinct, fun item member =>
    (validateItem_spec (accepted item member)).2, forM_eq_ok.mp references, parents, needs, fun name => ?_, ?_⟩
  · rw [bindParameters_spec names bound]
    simp
  · exact (mapM_eq_ok.mp drawn).imp fun _ _ => renderItem_spec

end Rendering

section Validators

variable {unprintable : Char → Bool} {template : WorkTemplate} {supplied : Std.TreeMap String String}
  {plan : TemplatePlan} {values : Std.TreeMap String String} {item : TemplateWorkItem}
  {rendered : RenderedTemplateItem} {projectId : ProjectId}

theorem normalizedToken_normalizeLabel {label : String} (token : labelToken (normalizeLabel label) = true) :
    normalizedToken (normalizeLabel label) = true := by
  simp only [labelToken, normalizedToken, Bool.and_eq_true] at token ⊢
  refine ⟨token.1, List.all_eq_true.mpr fun c member => ?_⟩
  have allowed := List.all_eq_true.mp token.2 c member
  rw [normalizeLabel, String.toList_ofList] at member
  obtain ⟨letter, -, rfl⟩ := List.mem_map.mp member
  simpa only [Char.isAlphanum, Char.isAlpha, Char.isUpper_toLower_eq_false, Bool.false_or] using allowed

theorem parseId_eq_ok {typeName value : String} {id : TypedId typeName}
    (parsed : parseId unprintable typeName value = .ok id) : id.value = value := by
  obtain ⟨-, same⟩ := check_eq_ok.mp parsed
  cases same
  rfl

theorem input_projectId {input : TemplateInputArtifactRef} {ref : InputArtifactRef}
    (read : input.toDomain unprintable = .ok ref) : ref.projectId.value = input.projectId := by
  obtain ⟨id, parsed, read⟩ := bind_eq_ok.mp read
  obtain ⟨_, -, read⟩ := bind_eq_ok.mp read
  obtain ⟨_, -, read⟩ := bind_eq_ok.mp read
  obtain ⟨_, -, same⟩ := bind_eq_ok.mp read
  cases same
  exact parseId_eq_ok parsed

theorem inputs_accepted {inputs : List TemplateInputArtifactRef} {refs : List InputArtifactRef}
    (read : inputs.mapM (TemplateInputArtifactRef.toDomain unprintable) = .ok refs)
    (ours : ∀ input ∈ inputs, input.projectId = projectId.value)
    (passed : ∀ first ∈ refs.head?, validateInputArtifactRefs refs first.projectId = .ok ()) :
    validateInputArtifactRefs refs projectId = .ok () := by
  cases mapM_eq_ok.mp read with
  | nil => rfl
  | @cons input ref inputs refs first later =>
    have named : ref.projectId = projectId :=
      TypedId.value_injective ((input_projectId first).trans (ours input List.mem_cons_self))
    rw [← named]
    exact passed ref rfl

theorem validateRenderedItem_fresh (seen : List String) (rendered : RenderedTemplateItem) :
    validateRenderedItem projectId seen rendered = .ok () ↔
      rendered.key ∉ seen ∧ validateRenderedItem projectId [] rendered = .ok () := by
  simp only [validateRenderedItem, check_eq_ok, refuse_eq_ok, not_or, List.not_mem_nil, not_false_eq_true,
    true_and]
  tauto

theorem validateRenderedItem_iff (accepted : ItemAccepted unprintable item)
    (drawn : Rendered unprintable values item rendered)
    (ours : ∀ input ∈ item.inputs, input.projectId = projectId.value) :
    validateRenderedItem projectId [] rendered = .ok () ↔
      '\x00' ∉ rendered.title.toList ∧ '\x00' ∉ rendered.description.toList := by
  have key : rendered.key = item.key := congrArg TemplateNode.key drawn.node
  have needs : rendered.dependencies = item.dependencies := congrArg TemplateNode.dependencies drawn.node
  obtain ⟨few, tokens, single⟩ := accepted.labelled
  have labels : ¬ ((∃ label ∈ rendered.labels, normalizedToken label = false) ∨ ¬ rendered.labels.Nodup) := by
    rw [drawn.labels]
    rintro (⟨label, member, bad⟩ | repeated)
    · obtain ⟨source, listed, rfl⟩ := List.mem_map.mp member
      rw [normalizedToken_normalizeLabel (tokens source listed)] at bad
      cases bad
    · exact repeated single
  have bound : rendered.labels.length ≤ 64 := by rwa [drawn.labels, List.length_map]
  have inputs : validateInputArtifactRefs rendered.inputs projectId = .ok () :=
    inputs_accepted drawn.inputs ours (accepted.inputs _ drawn.inputs)
  have deliverables := accepted.deliverables
  rw [← drawn.deliverables] at deliverables
  simp only [validateRenderedItem, check_eq_ok, refuse_eq_ok, discard_eq_ok, mapError_eq_ok, labels,
    not_lt.mpr bound, inputs, deliverables, drawn.profile, accepted.profile, key, needs,
    not_lt.mpr accepted.needs.1, not_lt.mpr accepted.priority, drawn.priority, accepted.identified,
    (substitute_spec drawn.title).1, (substitute_spec drawn.description).1]
  simp

theorem validateRenderedReferences_ok {keys : List String}
    (references : References keys rendered.toTemplateNode rendered.kind)
    (needs : rendered.key ∉ rendered.dependencies ∧ rendered.dependencies.Nodup) :
    validateRenderedReferences keys rendered = .ok () := by
  refine check_eq_ok.mpr ⟨refuse_of_not ?_, refuse_of_not (not_not.mpr needs.2)⟩
  rintro (⟨parent, member, absent⟩ | ⟨dependency, member, same | absent⟩ | ⟨sprint, orphan⟩)
  · exact absent (references.parent parent member)
  · exact needs.1 (same ▸ member)
  · exact absent (references.dependencies dependency member)
  · exact references.sprint sprint orphan

theorem DryRun.nodes (run : DryRun unprintable template supplied plan values) :
    plan.rendered.map (·.toTemplateNode) = template.items.map (·.toTemplateNode) := by
  have paired : List.Forall₂ (· = ·) (plan.rendered.map (·.toTemplateNode))
      (template.items.map (·.toTemplateNode)) := by
    rw [List.forall₂_map_left_iff, List.forall₂_map_right_iff]
    exact run.rendered.flip.imp fun _ _ drawn => drawn.node
  rwa [List.forall₂_eq_eq_eq] at paired

theorem DryRun.keys (run : DryRun unprintable template supplied plan values) :
    plan.rendered.map (·.key) = template.items.map (·.key) := by
  have nodes := congrArg (List.map TemplateNode.key) run.nodes
  rwa [List.map_map, List.map_map] at nodes

theorem DryRun.length (run : DryRun unprintable template supplied plan values) :
    plan.rendered.length = template.items.length := run.rendered.length_eq.symm

theorem DryRun.silent_iff (run : DryRun unprintable template supplied plan values) {text output : String}
    (written : substitute text values = .ok output) :
    '\x00' ∉ output.toList ↔ Silent template supplied text := by
  rw [(substitute_spec written).2, List.mem_flatMap, not_exists]
  have same : (fun name => values[name]?) = boundValue template.parameters supplied := funext run.bound
  rw [same]
  exact ⟨fun free piece member inside => free piece ⟨member, inside⟩,
    fun silent piece found => silent piece found.1 found.2⟩

theorem DryRun.silent_items_iff (run : DryRun unprintable template supplied plan values) :
    (∀ rendered ∈ plan.rendered, '\x00' ∉ rendered.title.toList ∧ '\x00' ∉ rendered.description.toList) ↔
      ∀ item ∈ template.items,
        Silent template supplied item.title ∧ Silent template supplied item.description := by
  have each (item : TemplateWorkItem) (rendered : RenderedTemplateItem)
      (drawn : Rendered unprintable values item rendered) :
      ('\x00' ∉ rendered.title.toList ∧ '\x00' ∉ rendered.description.toList) ↔
        Silent template supplied item.title ∧ Silent template supplied item.description :=
    and_congr (run.silent_iff drawn.title) (run.silent_iff drawn.description)
  constructor
  · intro free item member
    obtain ⟨rendered, listed, drawn⟩ := exists_partner run.rendered.flip item member
    exact (each item rendered drawn).mp (free rendered listed)
  · intro silent rendered member
    obtain ⟨item, listed, drawn⟩ := exists_partner run.rendered rendered member
    exact (each item rendered drawn).mpr (silent item listed)

theorem DryRun.validateRenderedPlan_iff (run : DryRun unprintable template supplied plan values)
    (ours : ∀ item ∈ template.items, ∀ input ∈ item.inputs, input.projectId = projectId.value) :
    validateRenderedPlan plan projectId = .ok () ↔ template.items.length ≤ 100 ∧
      ∀ item ∈ template.items,
        Silent template supplied item.title ∧ Silent template supplied item.description := by
  have fresh : ∀ seen rendered, validateRenderedItem projectId seen rendered = .ok () ↔
      rendered.key ∉ seen ∧ validateRenderedItem projectId [] rendered = .ok () :=
    validateRenderedItem_fresh
  have items : (∀ rendered ∈ plan.rendered, validateRenderedItem projectId [] rendered = .ok ()) ↔
      ∀ rendered ∈ plan.rendered, '\x00' ∉ rendered.title.toList ∧ '\x00' ∉ rendered.description.toList := by
    refine forall₂_congr fun rendered member => ?_
    obtain ⟨item, listed, drawn⟩ := exists_partner run.rendered rendered member
    exact validateRenderedItem_iff (run.accepted item listed) drawn (ours item listed)
  have references : ∀ rendered ∈ plan.rendered,
      validateRenderedReferences (plan.rendered.map (·.key)) rendered = .ok () := by
    intro rendered member
    obtain ⟨item, listed, drawn⟩ := exists_partner run.rendered rendered member
    have places := validateReferences_spec drawn.kind (run.references item listed)
    rw [← drawn.node, ← run.keys] at places
    have needs := (run.accepted item listed).needs.2
    rw [← congrArg TemplateNode.key drawn.node, ← congrArg TemplateNode.dependencies drawn.node] at needs
    exact validateRenderedReferences_ok places needs
  have some_ : plan.rendered ≠ [] := fun none_ => run.identity.2.2
    (List.length_eq_zero_iff.mp (by rw [← run.length, none_, List.length_nil]))
  have distinct := run.distinct
  rw [← run.keys] at distinct
  simp only [validateRenderedPlan, check_eq_ok, refuse_eq_ok, checkFresh_eq_ok fresh, forM_eq_ok, run.nodes,
    run.parents, run.needs, items, run.silent_items_iff, run.identity, some_, run.length, distinct,
    List.not_mem_nil, not_or, not_lt]
  simpa using fun _ _ => references

end Validators

section Ordering

variable {unprintable : Char → Bool} {template : WorkTemplate} {supplied : Std.TreeMap String String}
  {plan : TemplatePlan} {values : Std.TreeMap String String}

abbrev ParentReady : List String → List RenderedTemplateItem → Prop :=
  ReadyOrder (fun item => item.key) (fun item => item.parent.toList)

def ParentsFirst (ordered : List RenderedTemplateItem) : Prop :=
  ∀ before item after, ordered = before ++ item :: after →
    ∀ parent ∈ item.parent, parent ∈ before.map (·.key)

theorem parentsFirst_of_ready {ordered : List RenderedTemplateItem} (ready : ParentReady [] ordered) :
    ParentsFirst ordered := by
  intro before item after split parent member
  exact (readyOrder_behind ready split parent (Option.mem_toList.mpr member)).resolve_left List.not_mem_nil

theorem DryRun.places (run : DryRun unprintable template supplied plan values) :
    ∀ rendered ∈ plan.rendered, References (plan.rendered.map (·.key)) rendered.toTemplateNode rendered.kind := by
  intro rendered member
  obtain ⟨item, listed, drawn⟩ := exists_partner run.rendered rendered member
  have places := validateReferences_spec drawn.kind (run.references item listed)
  rwa [← drawn.node, ← run.keys] at places

theorem DryRun.ordered (run : DryRun unprintable template supplied plan values) :
    ∃ ordered, orderItems plan.rendered = .ok ordered ∧ ordered.Perm plan.rendered ∧
      ParentReady [] ordered := by
  have distinct : ((plan.rendered.map (·.toTemplateNode)).map (·.key)).Nodup := by
    rw [List.map_map]
    exact run.keys ▸ run.distinct
  have founded := detectTemplateCycles_founded (run.nodes ▸ run.parents)
  have known : ∀ rendered ∈ plan.rendered, ∀ key ∈ rendered.parent.toList,
      key ∈ ([] : List String) ∨ key ∈ plan.rendered.map (·.key) := fun rendered member key parent =>
    .inr ((run.places rendered member).parent key (Option.mem_toList.mp parent))
  have climbs : ∀ rendered ∈ plan.rendered,
      Acc (Needs (fun item => item.key) (fun item => item.parent.toList) plan.rendered) rendered.key := by
    intro rendered member
    refine Subrelation.accessible ?_ (founded _ (List.mem_map_of_mem member))
    rintro key child ⟨item, listed, rfl, parent⟩
    rw [← Option.mem_toList.mp parent]
    exact parentOf_eq distinct (List.mem_map_of_mem listed)
  obtain ⟨ordered, picked⟩ := pickReady_succeeds le_rfl known climbs
  obtain ⟨perm, ready⟩ := pickReady_spec picked
  exact ⟨ordered, by rw [orderItems, picked]; rfl, perm, ready⟩

end Ordering

section Batch

variable {projectId : ProjectId} {idPrefix : String}

theorem generatedId_injective (idPrefix : String) : Function.Injective (generatedId idPrefix) := by
  intro key key' same
  have letters := congrArg (fun id : WorkId => id.value.toList) same
  simp only [generatedId, String.toList_append] at letters
  exact String.toList_injective (List.append_cancel_left letters)

structure WorkOf (projectId : ProjectId) (idPrefix : String) (item : RenderedTemplateItem)
    (work : BatchWork) : Prop where
  id : work.id = generatedId idPrefix item.key
  project : work.projectId = projectId
  parent : work.parentId = item.parent.map (generatedId idPrefix)
  title : work.title = item.title
  lifecycle : work.lifecycle = .draft
  profile : resolveTemplateAcceptanceProfile item.acceptanceProfile = .ok work.acceptanceProfile

theorem batchWork_spec {ids : Std.TreeMap String WorkId} {item : RenderedTemplateItem}
    (known : ∀ parent ∈ item.parent, ids[parent]? = some (generatedId idPrefix parent))
    (profile : ∃ profile, resolveTemplateAcceptanceProfile item.acceptanceProfile = .ok profile) :
    ∃ work, batchWork projectId idPrefix ids item = .ok work ∧ WorkOf projectId idPrefix item work := by
  obtain ⟨profile, resolved⟩ := profile
  cases parented : item.parent with
  | none =>
    rw [batchWork, parented, resolved]
    exact ⟨_, rfl, rfl, rfl, by rw [parented]; rfl, rfl, rfl, resolved⟩
  | some parent =>
    rw [batchWork, parented, Option.mapM_some, known parent parented, resolved]
    exact ⟨_, rfl, rfl, rfl, by rw [parented]; rfl, rfl, rfl, resolved⟩

theorem batchWorks_spec {ordered : List RenderedTemplateItem} {done : List String}
    {ids : Std.TreeMap String WorkId} (ready : ParentReady done ordered)
    (known : ∀ key ∈ done, ids[key]? = some (generatedId idPrefix key))
    (profiles : ∀ item ∈ ordered,
      ∃ profile, resolveTemplateAcceptanceProfile item.acceptanceProfile = .ok profile) :
    ∃ works ids', batchWorks projectId idPrefix ids ordered = .ok (works, ids') ∧
      List.Forall₂ (WorkOf projectId idPrefix) ordered works ∧
      ∀ key, key ∈ done ∨ key ∈ ordered.map (·.key) → ids'[key]? = some (generatedId idPrefix key) := by
  induction ordered generalizing done ids with
  | nil => exact ⟨[], ids, rfl, .nil, fun key listed => known key (listed.resolve_right List.not_mem_nil)⟩
  | cons item rest ih =>
    rw [List.forall_mem_cons] at profiles
    have parents : ∀ parent ∈ item.parent, ids[parent]? = some (generatedId idPrefix parent) :=
      fun parent member => known parent (ready.1 parent (Option.mem_toList.mpr member))
    obtain ⟨work, written, stands⟩ := @batchWork_spec projectId idPrefix ids item parents profiles.1
    have known' : ∀ key ∈ item.key :: done,
        (ids.insert item.key work.id)[key]? = some (generatedId idPrefix key) := by
      intro key listed
      rw [Lookup.getElem?_insert]
      split_ifs with own
      · rw [stands.id, own]
      · exact known key ((List.mem_cons.mp listed).resolve_left (Ne.symm own))
    obtain ⟨works, ids', later, each, found⟩ := ih ready.2 known' profiles.2
    refine ⟨work :: works, ids', ?_, .cons stands each, fun key listed => found key ?_⟩
    · rw [batchWorks, written, ok_bind, later, ok_bind]
      rfl
    · rw [List.map_cons, List.mem_cons] at listed
      rw [List.mem_cons]
      tauto

def itemEdges (idPrefix : String) (item : RenderedTemplateItem) : List (String × String) :=
  item.dependencies.map fun prerequisite =>
    ((generatedId idPrefix prerequisite).value, (generatedId idPrefix item.key).value)

theorem orderedDependencies_spec {items : List RenderedTemplateItem} {ids : Std.TreeMap String WorkId}
    (found : ∀ key ∈ items.map (·.key), ids[key]? = some (generatedId idPrefix key))
    (inside : ∀ item ∈ items, ∀ key ∈ item.dependencies, key ∈ items.map (·.key)) :
    orderedDependencies items ids = .ok (items.flatMap (itemEdges idPrefix)) := by
  have each (item : RenderedTemplateItem) (member : item ∈ items) :
      itemDependencies ids item = .ok (itemEdges idPrefix item) := by
    rw [itemDependencies, found _ (List.mem_map_of_mem member), Option.elim_some, ok_bind, itemEdges]
    rw [mapM_eq_ok, List.forall₂_map_right_iff, List.forall₂_same]
    intro prerequisite needed
    rw [found _ (inside item member prerequisite needed)]
    rfl
  have all : items.mapM (itemDependencies ids) = .ok (items.map (itemEdges idPrefix)) := by
    rw [mapM_eq_ok, List.forall₂_map_right_iff, List.forall₂_same]
    exact each
  rw [orderedDependencies, all, List.flatMap]
  rfl

theorem batchLabels_spec {items : List RenderedTemplateItem} {ids : Std.TreeMap String WorkId} :
    ∀ entry ∈ (batchLabels items ids).toList, ∃ item ∈ items, ids[item.key]? = some ⟨entry.1⟩ ∧
      entry.2 = item.labels := by
  have all : ∀ id labels, (batchLabels items ids)[id]? = some labels →
      ∃ item ∈ items, ids[item.key]? = some ⟨id⟩ ∧ labels = item.labels := by
    refine List.foldlRecOn (motive := fun m : Std.TreeMap String (List String) => ∀ id labels,
      m[id]? = some labels → ∃ item ∈ items, ids[item.key]? = some ⟨id⟩ ∧ labels = item.labels) _ _ ?_ ?_
    · intro id labels found
      simp at found
    · intro m before item member id labels found
      cases given : ids[item.key]? with
      | none =>
        rw [given] at found
        exact before id labels found
      | some own =>
        rw [given, Option.elim_some, Lookup.getElem?_insert] at found
        split_ifs at found with same
        · subst same
          exact ⟨item, List.mem_of_mem_filter member, given, (Option.some.inj found).symm⟩
        · exact before id labels found
  rintro ⟨id, labels⟩ listed
  exact all id labels (Std.TreeMap.mem_toList_iff_getElem?_eq_some.mp listed)

end Batch

section Edges

variable {idPrefix : String} {items : List RenderedTemplateItem}

theorem mem_edges {edge : String × String} : edge ∈ items.flatMap (itemEdges idPrefix) ↔
    ∃ item ∈ items, ∃ prerequisite ∈ item.dependencies,
      edge = ((generatedId idPrefix prerequisite).value, (generatedId idPrefix item.key).value) := by
  simp only [List.mem_flatMap, itemEdges, List.mem_map, eq_comm]

theorem edges_nodup (distinct : (items.map (·.key)).Nodup) (single : ∀ item ∈ items, item.dependencies.Nodup) :
    (items.flatMap (itemEdges idPrefix)).Nodup := by
  have ids := generatedId_injective idPrefix
  have values {key key' : String}
      (same : (generatedId idPrefix key).value = (generatedId idPrefix key').value) : key = key' :=
    ids (TypedId.value_injective same)
  refine List.nodup_flatMap.mpr ⟨fun item member => ?_, ?_⟩
  · refine (single item member).map fun key key' same => ?_
    exact values (Prod.ext_iff.mp same).1
  · refine (List.pairwise_map.mp distinct).imp fun {item item'} apart => ?_
    intro edge here there
    obtain ⟨_, -, rfl⟩ := List.mem_map.mp here
    obtain ⟨_, -, same⟩ := List.mem_map.mp there
    exact apart (values (Prod.ext_iff.mp same).2).symm

theorem edges_acyclic (founded : ∀ item ∈ items,
      Acc (Needs (fun item => item.key) (fun item => item.dependencies) items) item.key) :
    Walks.Acyclic DependencyEdge.blockerId DependencyEdge.blockedId
      (· ∈ (items.flatMap (itemEdges idPrefix)).map batchEdge) := by
  have arc {a b : WorkId} (step : Walks.Step DependencyEdge.blockerId DependencyEdge.blockedId
      (· ∈ (items.flatMap (itemEdges idPrefix)).map batchEdge) a b) :
      ∃ item ∈ items, ∃ prerequisite ∈ item.dependencies,
        a = generatedId idPrefix prerequisite ∧ b = generatedId idPrefix item.key := by
    obtain ⟨_, listed, rfl, rfl⟩ := step
    obtain ⟨edge, member, rfl⟩ := List.mem_map.mp listed
    obtain ⟨item, inside, prerequisite, needed, rfl⟩ := mem_edges.mp member
    exact ⟨item, inside, prerequisite, needed, rfl, rfl⟩
  have lifted (key : String)
      (founded : Acc (Needs (fun item => item.key) (fun item => item.dependencies) items) key) :
      Acc (Walks.Step DependencyEdge.blockerId DependencyEdge.blockedId
        (· ∈ (items.flatMap (itemEdges idPrefix)).map batchEdge)) (generatedId idPrefix key) := by
    induction founded with
    | intro key _ ih =>
      refine ⟨_, fun a step => ?_⟩
      obtain ⟨item, inside, prerequisite, needed, rfl, same⟩ := arc step
      exact ih prerequisite ⟨item, inside, (generatedId_injective idPrefix same).symm, needed⟩
  intro a cycle
  obtain ⟨b, -, step⟩ := Relation.TransGen.tail'_iff.mp cycle
  obtain ⟨item, inside, -, -, -, rfl⟩ := arc step
  exact acc_not_transGen (lifted item.key (founded item inside)) cycle

end Edges

section Works

variable {projectId : ProjectId} {idPrefix : String} {ordered : List RenderedTemplateItem}
  {works : List BatchWork}

theorem works_ids (paired : List.Forall₂ (WorkOf projectId idPrefix) ordered works) :
    works.map (·.id) = (ordered.map (·.key)).map (generatedId idPrefix) := by
  induction paired with
  | nil => rfl
  | cons stands _ ih => rw [List.map_cons, stands.id, ih, List.map_cons, List.map_cons]

theorem works_distinct (paired : List.Forall₂ (WorkOf projectId idPrefix) ordered works)
    (distinct : (ordered.map (·.key)).Nodup) : (works.map (·.id)).Nodup := by
  rw [works_ids paired]
  exact distinct.map (generatedId_injective idPrefix)

theorem works_known (paired : List.Forall₂ (WorkOf projectId idPrefix) ordered works) {key : String}
    (listed : key ∈ ordered.map (·.key)) : generatedId idPrefix key ∈ works.map (·.id) := by
  rw [works_ids paired]
  exact List.mem_map_of_mem listed

theorem validateBatchParent_ok (paired : List.Forall₂ (WorkOf projectId idPrefix) ordered works)
    (ready : ParentReady [] ordered) : ∀ placed ∈ works.zipIdx, validateBatchParent works placed = .ok () := by
  rintro ⟨work, n⟩ member
  rw [List.mem_zipIdx_iff_getElem?] at member
  dsimp only at member
  obtain ⟨within, rfl⟩ := List.getElem?_eq_some_iff.mp member
  obtain ⟨same, each⟩ := List.forall₂_iff_get.mp paired
  have stands := each n (by omega) within
  simp only [List.get_eq_getElem] at stands each
  refine option_forM_eq_ok.mpr fun id parented => ?_
  rw [stands.parent] at parented
  obtain ⟨parent, named, rfl⟩ := Option.map_eq_some_iff.mp parented
  have split : ordered = ordered.take n ++ ordered[n] :: ordered.drop (n + 1) := by
    rw [List.getElem_cons_drop, List.take_append_drop]
  have before := parentsFirst_of_ready ready _ _ _ split parent named
  obtain ⟨item, early, here⟩ := List.mem_map.mp before
  obtain ⟨j, small, rfl⟩ := List.mem_take_iff_getElem.mp early
  have earlier : works[j].id = generatedId idPrefix parent := here ▸ (each j (by omega) (by omega)).id
  cases found : works.findIdx? (·.id = generatedId idPrefix parent) with
  | none =>
    have absent := List.findIdx?_eq_none_iff.mp found works[j] (List.getElem_mem _)
    exact absurd earlier (of_decide_eq_false absent)
  | some i =>
    obtain ⟨_, _, first⟩ := List.findIdx?_eq_some_iff_getElem.mp found
    refine refuse_of_not fun late => ?_
    exact first j (by omega) (decide_eq_true earlier)

theorem validateBatchEdge_fresh (seen : List (String × String)) (edge : String × String) :
    validateBatchEdge works seen edge = .ok () ↔
      id edge ∉ seen ∧ (⟨edge.1⟩ : WorkId) ∈ works.map (·.id) ∧ (⟨edge.2⟩ : WorkId) ∈ works.map (·.id) := by
  rw [validateBatchEdge, refuse_eq_ok]
  simp only [not_or, not_not, id_eq]
  tauto

theorem validateBatchWork_fresh (seen : List WorkId) (work : BatchWork) :
    validateBatchWork projectId seen work = .ok () ↔
      work.id ∉ seen ∧ validateBatchWork projectId [] work = .ok () := by
  simp only [validateBatchWork, check_eq_ok, refuse_eq_ok, List.not_mem_nil, not_false_eq_true, and_true]
  tauto

theorem validateBatchId_fresh (seen : List WorkId) (work : BatchWork) :
    validateBatchId projectId seen work = .ok () ↔ work.id ∉ seen ∧ work.projectId = projectId := by
  rw [validateBatchId, refuse_eq_ok, not_or, not_not, and_comm]

theorem keyBehind_generatedId (key : String) : keyBehind idPrefix (generatedId idPrefix key) = some key := by
  have letters : (generatedId idPrefix key).value.toList = (idPrefix ++ "-").toList ++ key.toList := by
    rw [generatedId, String.toList_append]
  rw [keyBehind, letters, if_pos (List.isPrefixOf_iff_prefix.mpr (List.prefix_append _ _)), List.drop_left,
    String.ofList_toList]

theorem resolved_canonical {value : String} {profile : Status.AcceptanceProfile}
    (resolved : resolveTemplateAcceptanceProfile value = .ok profile) :
    canonicalTemplateAcceptanceProfile profile = .ok profile := by
  have plain : canonicalTemplateAcceptanceProfile focused = .ok focused := by rfl
  have careful : canonicalTemplateAcceptanceProfile reviewed = .ok reviewed := by rfl
  have general : ∀ registered ∈ generalAcceptanceProfiles,
      canonicalTemplateAcceptanceProfile registered.profile = .ok registered.profile := by
    rw [generalAcceptanceProfiles, List.forall_mem_cons, List.forall_mem_cons, List.forall_mem_cons]
    exact ⟨by rfl, by rfl, by rfl, List.forall_mem_nil _⟩
  rw [resolveTemplateAcceptanceProfile] at resolved
  split_ifs at resolved with first second
  · cases resolved
    exact plain
  · cases resolved
    exact careful
  · obtain ⟨⟨profileId, version⟩, -, resolved⟩ := bind_eq_ok.mp resolved
    dsimp only at resolved
    split at resolved
    · cases resolved
    · rename_i registered found
      cases resolved
      refine general registered ?_
      rw [registeredAcceptanceProfile] at found
      split at found
      · rename_i profile listed
        split_ifs at found
        cases found
        exact List.mem_of_find?_eq_some listed
      · split_ifs at found
        cases found
    · split_ifs at resolved
      · cases resolved
        exact plain
      · cases resolved
        exact careful

end Works

section Applying

variable {unprintable : Char → Bool} {template : WorkTemplate} {supplied : Std.TreeMap String String}
  {plan : TemplatePlan} {values : Std.TreeMap String String} {projectId : ProjectId}

/-- Arguments that an application asks for besides the plan. -/
structure TemplateCaller.WellFormed (caller : TemplateCaller) : Prop where
  actor : isBlank caller.actorId = false
  session : isBlank caller.sessionId = false
  operation : isBlank caller.operationId = false
  idPrefix : validIdentifier caller.idPrefix = true

/-- What the store reads of a batch that a plan has become. -/
structure BatchOf (plan : TemplatePlan) (projectId : ProjectId) (caller : TemplateCaller)
    (ordered : List RenderedTemplateItem) (request : WorkBatchCreateRequest) : Prop where
  arguments : request.toTemplateCaller = caller
  project : request.projectId = projectId
  template : request.templateId = plan.templateId ∧ request.templateVersion = plan.templateVersion
  works : List.Forall₂ (WorkOf projectId caller.idPrefix) ordered request.works
  dependencies : request.dependencies = plan.rendered.flatMap (itemEdges caller.idPrefix)
  labels : ∀ entry ∈ request.labels.toList, ∃ item ∈ plan.rendered,
    entry.1 = (generatedId caller.idPrefix item.key).value ∧ entry.2 = item.labels

theorem DryRun.instantiated (run : DryRun unprintable template supplied plan values)
    (valid : validateRenderedPlan plan projectId = .ok ()) {caller : TemplateCaller}
    (formed : caller.WellFormed) :
    ∃ ordered request, instantiateTemplate plan projectId caller = .ok request ∧
      ordered.Perm plan.rendered ∧ ParentReady [] ordered ∧ BatchOf plan projectId caller ordered request := by
  obtain ⟨ordered, sorted, perm, ready⟩ := run.ordered
  have profiles : ∀ item ∈ ordered,
      ∃ profile, resolveTemplateAcceptanceProfile item.acceptanceProfile = .ok profile := by
    intro rendered member
    obtain ⟨item, listed, drawn⟩ := exists_partner run.rendered rendered (perm.subset member)
    rw [drawn.profile]
    exact (run.accepted item listed).profile
  obtain ⟨works, ids, built, paired, found⟩ := @batchWorks_spec projectId caller.idPrefix ordered [] ∅ ready
    (List.forall_mem_nil _) profiles
  have given : ∀ key ∈ plan.rendered.map (·.key), ids[key]? = some (generatedId caller.idPrefix key) :=
    fun key listed => found key (.inr ((perm.map _).symm.subset listed))
  have edges := orderedDependencies_spec given fun item member => (run.places item member).dependencies
  refine ⟨ordered, ⟨caller, projectId, plan.templateId, plan.templateVersion, works,
    plan.rendered.flatMap (itemEdges caller.idPrefix), batchLabels plan.rendered ids⟩, ?_, perm, ready, ?_⟩
  · rw [instantiateTemplate, valid, ok_bind, refuse_of_not, ok_bind, sorted, ok_bind, built, ok_bind]
    · dsimp only
      rw [edges]
      rfl
    · simp [formed.actor, formed.session, formed.operation, formed.idPrefix]
  · refine ⟨rfl, rfl, ⟨rfl, rfl⟩, paired, rfl, fun entry listed => ?_⟩
    obtain ⟨item, member, own, labels⟩ := batchLabels_spec entry listed
    rw [given item.key (List.mem_map_of_mem member)] at own
    exact ⟨item, member, congrArg TypedId.value (Option.some.inj own).symm, labels⟩

theorem DryRun.needs_founded (run : DryRun unprintable template supplied plan values) :
    ∀ item ∈ plan.rendered,
      Acc (Needs (fun item => item.key) (fun item => item.dependencies) plan.rendered) item.key := by
  have counted := run.needs
  rw [← run.nodes] at counted
  have distinct : ((plan.rendered.map (·.toTemplateNode)).map TemplateNode.key).Nodup := by
    rw [List.map_map]
    exact run.keys ▸ run.distinct
  have single : ∀ node ∈ plan.rendered.map (·.toTemplateNode), node.dependencies.Nodup := by
    rw [run.nodes]
    intro node member
    obtain ⟨item, listed, rfl⟩ := List.mem_map.mp member
    exact (run.accepted item listed).needs.2.2
  have founded := countdown_founded distinct single (not_not.mp (refuse_eq_ok.mp counted))
  intro item member
  refine Subrelation.accessible ?_ (founded _ (List.mem_map_of_mem member))
  rintro key dependent ⟨other, listed, named, needed⟩
  exact ⟨_, List.mem_map_of_mem listed, named, needed⟩

theorem DryRun.edges_ok (run : DryRun unprintable template supplied plan values) {caller : TemplateCaller}
    {ordered : List RenderedTemplateItem} {request : WorkBatchCreateRequest}
    (perm : ordered.Perm plan.rendered) (batch : BatchOf plan projectId caller ordered request) :
    checkFresh id (validateBatchEdge request.works) [] request.dependencies = .ok () ∧
      validateDependencyEdges (request.works.map (·.toStatusWork.toWorkItem))
        (request.dependencies.map batchEdge) = .ok () := by
  have distinct : (plan.rendered.map (·.key)).Nodup := run.keys ▸ run.distinct
  have single : ∀ item ∈ plan.rendered, item.dependencies.Nodup := by
    intro rendered member
    obtain ⟨item, listed, drawn⟩ := exists_partner run.rendered rendered member
    rw [congrArg TemplateNode.dependencies drawn.node]
    exact (run.accepted item listed).needs.2.2
  have known (key : String) (listed : key ∈ plan.rendered.map (·.key)) :
      generatedId caller.idPrefix key ∈ request.works.map (·.id) :=
    works_known batch.works ((perm.map _).symm.subset listed)
  have ends : ∀ edge ∈ request.dependencies, (⟨edge.1⟩ : WorkId) ∈ request.works.map (·.id) ∧
      (⟨edge.2⟩ : WorkId) ∈ request.works.map (·.id) := by
    intro edge member
    rw [batch.dependencies] at member
    obtain ⟨item, inside, prerequisite, needed, rfl⟩ := mem_edges.mp member
    exact ⟨known _ ((run.places item inside).dependencies _ needed), known _ (List.mem_map_of_mem inside)⟩
  constructor
  · refine (checkFresh_eq_ok validateBatchEdge_fresh).mpr ⟨ends, ?_, fun _ _ => List.not_mem_nil⟩
    rw [List.map_id, batch.dependencies]
    exact edges_nodup distinct single
  · have scope : ∀ item ∈ request.works.map (·.toStatusWork.toWorkItem), item.projectId = projectId := by
      intro item member
      obtain ⟨work, listed, rfl⟩ := List.mem_map.mp member
      obtain ⟨_, -, stands⟩ := exists_partner batch.works work listed
      exact stands.project
    have listed (id : WorkId) (member : id ∈ request.works.map (·.id)) :
        ∃ item ∈ request.works.map (·.toStatusWork.toWorkItem), item.id = id := by
      obtain ⟨work, inside, named⟩ := List.mem_map.mp member
      exact ⟨_, List.mem_map_of_mem inside, named⟩
    refine (validateDependencyEdges_ok scope ?_).mpr ?_
    · intro e member
      obtain ⟨edge, inside, rfl⟩ := List.mem_map.mp member
      exact ⟨listed _ (ends edge inside).1, listed _ (ends edge inside).2⟩
    · rw [batch.dependencies]
      exact edges_acyclic run.needs_founded

theorem DryRun.sources (run : DryRun unprintable template supplied plan values) {caller : TemplateCaller}
    {ordered : List RenderedTemplateItem} {request : WorkBatchCreateRequest}
    (perm : ordered.Perm plan.rendered) (batch : BatchOf plan projectId caller ordered request) :
    ∀ work ∈ request.works, ∃ item ∈ template.items, ∃ rendered,
      Rendered unprintable values item rendered ∧ WorkOf projectId caller.idPrefix rendered work := by
  intro work member
  obtain ⟨rendered, inside, stands⟩ := exists_partner batch.works work member
  obtain ⟨item, listed, drawn⟩ := exists_partner run.rendered rendered (perm.subset inside)
  exact ⟨item, listed, rendered, drawn, stands⟩

theorem DryRun.labels_ok (run : DryRun unprintable template supplied plan values) {caller : TemplateCaller}
    {ordered : List RenderedTemplateItem} {request : WorkBatchCreateRequest}
    (perm : ordered.Perm plan.rendered) (batch : BatchOf plan projectId caller ordered request) :
    ∀ entry ∈ request.labels.toList, validateBatchLabels request.works entry = .ok () := by
  intro entry listed
  obtain ⟨rendered, inside, own, labels⟩ := batch.labels entry listed
  obtain ⟨item, member, drawn⟩ := exists_partner run.rendered rendered inside
  obtain ⟨count, tokens, single⟩ := (run.accepted item member).labelled
  have known : (⟨entry.1⟩ : WorkId) ∈ request.works.map (·.id) := by
    rw [own]
    exact works_known batch.works ((perm.map _).symm.subset (List.mem_map_of_mem inside))
  rw [validateBatchLabels, labels, drawn.labels, check_eq_ok, refuse_eq_ok, refuse_eq_ok, List.length_map]
  constructor
  · rintro (unknown | many)
    · exact unknown known
    · exact absurd count (not_le.mpr many)
  · rintro (⟨label, member, bad⟩ | repeated)
    · obtain ⟨source, listed, rfl⟩ := List.mem_map.mp member
      rw [normalizedToken_normalizeLabel (tokens source listed)] at bad
      cases bad
    · exact repeated single

theorem DryRun.payload_ok (run : DryRun unprintable template supplied plan values) {caller : TemplateCaller}
    {ordered : List RenderedTemplateItem} {request : WorkBatchCreateRequest}
    (perm : ordered.Perm plan.rendered) (ready : ParentReady [] ordered)
    (batch : BatchOf plan projectId caller ordered request)
    (distinct : (request.works.map (·.id)).Nodup) : validateBatchPayload request = .ok () := by
  have titled : ∀ work ∈ request.works, validateBatchWork request.projectId [] work = .ok () := by
    intro work member
    obtain ⟨item, -, rendered, drawn, stands⟩ := run.sources perm batch work member
    simp [validateBatchWork, check_eq_ok, refuse_eq_ok, stands.title, (substitute_spec drawn.title).1,
      stands.project, batch.project, stands.lifecycle, PersistedLifecycle.isTerminal]
  have profiled : ∀ work ∈ request.works, validateBatchProfile work = .ok () := by
    intro work member
    obtain ⟨_, -, rendered, -, stands⟩ := run.sources perm batch work member
    rw [validateBatchProfile, resolved_canonical stands.profile, ok_bind]
    exact refuse_of_not (not_not.mpr rfl)
  have works := (checkFresh_eq_ok validateBatchWork_fresh).mpr
    ⟨titled, distinct, fun _ _ => List.not_mem_nil⟩
  obtain ⟨edges, graph⟩ := run.edges_ok perm batch
  simp only [validateBatchPayload, check_eq_ok, mapError_eq_ok, forM_eq_ok]
  exact ⟨works, validateBatchParent_ok batch.works ready, edges, graph, run.labels_ok perm batch, profiled⟩

theorem DryRun.batch_ok (run : DryRun unprintable template supplied plan values)
    (few : template.items.length ≤ 100) {caller : TemplateCaller} (formed : caller.WellFormed)
    {ordered : List RenderedTemplateItem} {request : WorkBatchCreateRequest}
    (perm : ordered.Perm plan.rendered) (ready : ParentReady [] ordered)
    (batch : BatchOf plan projectId caller ordered request) : checkWorkBatch request = .ok () := by
  have keys : (ordered.map (·.key)).Nodup := (perm.map _).nodup_iff.mpr (run.keys ▸ run.distinct)
  have distinct := works_distinct batch.works keys
  have size : request.works.length = template.items.length := by
    rw [← batch.works.length_eq, perm.length_eq, run.length]
  have some_ : request.works ≠ [] := fun none_ => run.identity.2.2
    (List.length_eq_zero_iff.mp (by rw [← size, none_, List.length_nil]))
  have start : validTemplatePrefix caller.idPrefix = true := formed.idPrefix
  have ids : checkFresh (fun work => work.id) (validateBatchId request.projectId) [] request.works = .ok () := by
    refine (checkFresh_eq_ok validateBatchId_fresh).mpr ⟨fun work member => ?_, distinct, fun _ _ => List.not_mem_nil⟩
    obtain ⟨_, -, rendered, -, stands⟩ := run.sources perm batch work member
    rw [stands.project, batch.project]
  rw [checkWorkBatch, check_eq_ok, check_eq_ok, check_eq_ok, refuse_eq_ok, refuse_eq_ok]
  refine ⟨?_, ids, ?_, run.payload_ok perm ready batch distinct⟩
  · rw [batch.arguments, batch.template.1, batch.template.2, size]
    simp [some_, few, formed.actor, formed.session, formed.operation, run.identity, start]
  · rintro ⟨work, member, bad⟩
    obtain ⟨item, listed, rendered, drawn, stands⟩ := run.sources perm batch work member
    have key : validTemplateKey rendered.key = true := by
      rw [congrArg TemplateNode.key drawn.node]
      exact (run.accepted item listed).identified
    rw [batch.arguments, stands.id, keyBehind_generatedId, Option.any_some, key] at bad
    cases bad

end Applying

section Results

variable {unprintable : Char → Bool} {template : WorkTemplate} {supplied : Std.TreeMap String String}
  {plan : TemplatePlan} {projectId : ProjectId}

/-- A plan that every later check accepts, whoever applies it. -/
structure Applicable (plan : TemplatePlan) (projectId : ProjectId) : Prop where
  accepted : validateRenderedPlan plan projectId = .ok ()
  ordered : ∃ ordered, orderItems plan.rendered = .ok ordered ∧ ordered.Perm plan.rendered ∧
    ParentsFirst ordered
  batched : ∀ caller : TemplateCaller, caller.WellFormed → ∃ request,
    instantiateTemplate plan projectId caller = .ok request ∧ checkWorkBatch request = .ok ()

/-- A plan that a dry run shows can be applied exactly when it has at most 100 items and nothing brings
a NUL character into their titles and descriptions. -/
theorem dryRun_applicable_iff (planned : template.plan unprintable supplied = .ok plan)
    (ours : ∀ item ∈ template.items, ∀ input ∈ item.inputs, input.projectId = projectId.value) :
    Applicable plan projectId ↔ template.items.length ≤ 100 ∧ ∀ item ∈ template.items,
      Silent template supplied item.title ∧ Silent template supplied item.description := by
  obtain ⟨values, run⟩ := plan_spec planned
  rw [← run.validateRenderedPlan_iff ours]
  constructor
  · exact Applicable.accepted
  · intro accepted
    obtain ⟨few, -⟩ := (run.validateRenderedPlan_iff ours).mp accepted
    refine ⟨accepted, ?_, fun caller formed => ?_⟩
    · obtain ⟨ordered, sorted, perm, ready⟩ := run.ordered
      exact ⟨ordered, sorted, perm, parentsFirst_of_ready ready⟩
    · obtain ⟨ordered, request, written, perm, ready, batch⟩ := run.instantiated accepted formed
      exact ⟨request, written, run.batch_ok few formed perm ready batch⟩

instance (text : String) : Decidable (Silent template supplied text) :=
  inferInstanceAs (Decidable (∀ piece ∈ _, _))

def launchItem (key : String) (parent : Option String) (dependencies : List String) (title : String) :
    TemplateWorkItem where
  key := key
  parent := parent
  dependencies := dependencies
  kind := "task"
  title := title
  description := "Prepare it"
  priority := 3
  dispatch := "automatic"
  labels := [" Launch "]
  acceptanceProfile := "focused"
  deliverables := []
  inputs := []

/-- A child in front of its parent, which it also waits for, and a parameter. -/
def launch (title : String) : WorkTemplate where
  schemaVersion := 2
  id := "launch"
  version := 1
  title := "Launch"
  description := "Launch a product"
  parameters := [⟨"product", "What is launched", true, none⟩]
  items := [launchItem "notes" (some "page") ["page"] title, launchItem "page" none [] "Page"]

def productName : Std.TreeMap String String := (∅ : Std.TreeMap String String).insert "product" "Atlas"

def renderedLaunchItem (key : String) (parent : Option String) (dependencies : List String) (title : String) :
    RenderedTemplateItem where
  key := key
  parent := parent
  dependencies := dependencies
  kind := .task
  title := title
  description := "Prepare it"
  priority := 3
  dispatch := .automatic
  labels := ["launch"]
  acceptanceProfile := "focused"
  deliverables := []
  inputs := []

def renderedLaunch (title : String) : TemplatePlan :=
  ⟨"launch", 1, [renderedLaunchItem "notes" (some "page") ["page"] title,
    renderedLaunchItem "page" none [] "Page"]⟩

theorem launch_applicable : Applicable (renderedLaunch "Notes for Atlas") ⟨"atlas"⟩ := by
  have planned : (launch "Notes for \x7b\x7b product \x7d\x7d").plan (fun _ => false) productName =
      .ok (renderedLaunch "Notes for Atlas") := by decide +kernel
  have ours : ∀ item ∈ (launch "Notes for \x7b\x7b product \x7d\x7d").items, ∀ input ∈ item.inputs,
      input.projectId = (⟨"atlas"⟩ : ProjectId).value := by decide +kernel
  exact (dryRun_applicable_iff planned ours).mpr (by decide +kernel)

theorem nul_title_not_applicable :
    (launch "Notes\x00").plan (fun _ => false) productName = .ok (renderedLaunch "Notes\x00") ∧
      (∀ item ∈ (launch "Notes\x00").items, ∀ input ∈ item.inputs, input.projectId = "atlas") ∧
      ¬ Applicable (renderedLaunch "Notes\x00") ⟨"atlas"⟩ := by
  have refused : validateRenderedPlan (renderedLaunch "Notes\x00") ⟨"atlas"⟩ ≠ .ok () := by decide +kernel
  exact ⟨by decide +kernel, by decide +kernel, fun applicable => refused applicable.accepted⟩

end Results

end Boreal.Templates
