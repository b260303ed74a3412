import GraphCodec.Proofs.Rearranged

/-!
# The identifiers of a module

A module has three sections of exports. A type is exported under its own name. The two exports of an
operation are named separately: the variables by the operation type of the operation, the response
by that of its codec. Both agree (`Operation.exported_of_codecs`). The suffixes end differently, so
an identifier determines the export, the name of the operation and its operation type
(`exportName_inj`). Exports therefore collide only if operations do, or if a type is named like an
export of an operation.

The name of an export is the name that its text declares, as a constant and as a type (`Declares`).
-/

set_option autoImplicit false

namespace GraphCodec

/-- An index of the second list is an index of the first. -/
theorem exists_getElem?_of_forall₂ {α β : Type} {R : α → β → Prop} {l : List α} {r : List β}
    (h : List.Forall₂ R l r) {i : Nat} {b : β} (hb : r[i]? = some b) :
    ∃ a, l[i]? = some a ∧ R a b := by
  induction h generalizing i with
  | nil => simp at hb
  | cons hHead hTail ih =>
      cases i with
      | zero =>
          cases hb
          exact ⟨_, rfl, hHead⟩
      | succ i => exact ih hb

/-! ## Identifiers of operations -/

/-- The two exports of an operation. -/
inductive OperationBlock where
  | vars | response
  deriving DecidableEq, Repr

namespace OperationBlock

/-- The identifier of an export of an operation, by its name and its operation type. -/
def exportName : OperationBlock → String → OperationKind → String
  | vars, name, kind => name ++ kind.title ++ "Variables"
  | response, name, kind => name ++ kind.title

/-- Appending the operation type is injective. -/
theorem append_title_inj {a b : String} {k l : OperationKind} (h : a ++ k.title = b ++ l.title) :
    a = b ∧ k = l := by
  have hList : a.toList ++ k.title.toList = b.toList ++ l.title.toList := by
    rw [← String.toList_append, ← String.toList_append, h]
  have hKind : k = l := by
    have hEnd := congrArg (fun cs => cs.reverse.take 5) hList
    cases k <;> cases l <;> simp [OperationKind.title] at hEnd ⊢
  subst hKind
  exact ⟨String.toList_inj.mp ((List.append_left_inj _).mp hList), rfl⟩

/-- The suffix `Variables` ends in a letter in which no operation type ends. -/
theorem append_variables_ne (a b : String) (l : OperationKind) :
    a ++ "Variables" ≠ b ++ l.title := by
  intro h
  have hList : a.toList ++ "Variables".toList = b.toList ++ l.title.toList := by
    rw [← String.toList_append, ← String.toList_append, h]
  have hEnd := congrArg List.getLast? hList
  cases l <;> simp [OperationKind.title] at hEnd

/-- **The identifiers of operations are injective**: an identifier determines the export, the name
and the operation type. -/
theorem exportName_inj {x y : OperationBlock} {a b : String} {k l : OperationKind}
    (h : x.exportName a k = y.exportName b l) : x = y ∧ a = b ∧ k = l := by
  cases x with
  | vars =>
      cases y with
      | vars => exact ⟨rfl, append_title_inj ((String.append_left_inj _).mp h)⟩
      | response => exact absurd h (append_variables_ne _ _ _)
  | response =>
      cases y with
      | vars => exact absurd h.symm (append_variables_ne _ _ _)
      | response => exact ⟨rfl, append_title_inj h⟩

end OperationBlock

/-! ## The exports of an operation -/

namespace Operation

theorem name_variablesCodec {op : Operation} {inputs : List (String × Codec)} {c : Codec}
    (h : op.variablesCodec inputs = .ok c) :
    ∃ name, op.name = some name ∧ c.name = OperationBlock.vars.exportName name op.kind := by
  obtain ⟨codecName, hName, hRest⟩ := bind_eq_ok.mp h
  obtain ⟨pairs, -, hc⟩ := bind_eq_ok.mp hRest
  cases hc
  rw [variablesName] at hName
  cases hOp : op.name with
  | none =>
      rw [hOp] at hName
      cases hName
  | some name =>
      rw [hOp] at hName
      cases hName
      exact ⟨name, rfl, rfl⟩

/-- The suffix of a response codec is the operation type. For a subscription it would be `Query`. -/
theorem name_ofSelection {op : Operation} {root c : Codec} (hKind : op.kind ≠ .subscription)
    (h : op.selectionCodec root = .ok c) :
    ∃ name, op.name = some name ∧
      (Export.ofSelection c).name = OperationBlock.response.exportName name op.kind := by
  obtain ⟨name, props, hName, -, rfl⟩ := selectionCodec_eq_ok.mp h
  refine ⟨name, hName, ?_⟩
  cases hOp : op.kind with
  | query => rfl
  | mutation => rfl
  | subscription => exact absurd hOp hKind

/-- **Both exports of an operation are named by `exportName`.** -/
theorem exported_of_codecs {op : Operation} {schema : Schema} {p : Codec × Codec}
    (h : op.codecs schema = .ok p) :
    ∃ name, op.name = some name ∧
      (Export.ofVariables p.1).name = OperationBlock.vars.exportName name op.kind ∧
      (Export.ofSelection p.2).name = OperationBlock.response.exportName name op.kind := by
  obtain ⟨hVars, root, hRoot, hSelection⟩ := codecs_eq_ok.mp h
  obtain ⟨name, hName, hVarsName⟩ := name_variablesCodec hVars
  -- subscriptions have no root
  obtain ⟨name', hName', hResponse⟩ := name_ofSelection (root_eq_ok.mp hRoot).1 hSelection
  obtain rfl : name = name' := by simpa [hName] using hName'
  exact ⟨name, hName, hVarsName, hResponse⟩

end Operation

/-! ## The exports of a module -/

/-- The position of an export in a module: its section and its index there. The exports of an
operation have the index of the operation. -/
inductive BlockPlace where
  | type (index : Nat)
  | operation (block : OperationBlock) (index : Nat)
  deriving DecidableEq, Repr

/-- The export at a position. -/
def CodecModule.block? (m : CodecModule) : BlockPlace → Option Export
  | .type i => m.types[i]?
  | .operation .vars i => m.vars[i]?
  | .operation .response i => m.selections[i]?

/-- **Exports of homonymous operations**: both hold the variables, or both the response, of
operations of the same name and operation type. -/
def Namesakes (operations : List Operation) (p q : BlockPlace) : Prop :=
  ∃ block i j a b, p = .operation block i ∧ q = .operation block j ∧
    operations[i]? = some a ∧ operations[j]? = some b ∧ a.name = b.name ∧ a.kind = b.kind

/-- **A type whose name is the identifier of an operation's export.** -/
def TakesName (operations : List Operation) (p : BlockPlace) (e : Export) : Prop :=
  ∃ i, p = .type i ∧ ∃ op ∈ operations, ∃ name block, op.name = some name ∧
    e.name = OperationBlock.exportName block name op.kind

/-- **The declaration of a name**: an `export const` of a codec, followed by the `export type` of
its `t.TypeOf`, with an indexed access where the type is that of a property. -/
def Declares (text name access : String) : Prop :=
  ∃ codec, text = "export const " ++ name ++ " = " ++ codec ++ ";\nexport type " ++ name ++ " = " ++
    ("t.TypeOf<typeof " ++ name ++ ">" ++ access) ++ ";\n"

namespace Export

theorem name_ofType (c : Codec) : (ofType c).name = c.name := by
  cases c <;> rfl

theorem declares_ofCodec (mode : Mode) (c : Codec) :
    Declares (ofCodec mode c).text (ofCodec mode c).name "" := by
  refine ⟨c.text mode, ?_⟩
  rw [String.append_empty]
  rfl

theorem declares_ofType (c : Codec) : Declares (ofType c).text (ofType c).name "" := by
  cases c with
  | input n ps => exact declares_ofCodec .input (.input n ps)
  | _ => exact declares_ofCodec .output _

theorem declares_ofSelection (c : Codec) :
    Declares (ofSelection c).text (ofSelection c).name "['data']" :=
  ⟨_, rfl⟩

end Export

/-- **Every export declares its name.** The type of a response is that of its `data` entry. -/
theorem CodecModule.declares_ofCodecs (types : List Codec) (operations : List (Codec × Codec)) :
    (∀ e ∈ (ofCodecs types operations).types ++ (ofCodecs types operations).vars,
      Declares e.text e.name "") ∧
    ∀ e ∈ (ofCodecs types operations).selections, Declares e.text e.name "['data']" := by
  refine ⟨fun e he => ?_, fun e he => ?_⟩
  · rcases List.mem_append.mp he with hType | hVars
    · obtain ⟨c, -, rfl⟩ := List.mem_map.mp hType
      exact Export.declares_ofType c
    · obtain ⟨p, -, rfl⟩ := List.mem_map.mp hVars
      exact Export.declares_ofCodec .input p.1
  · obtain ⟨p, -, rfl⟩ := List.mem_map.mp he
    exact Export.declares_ofSelection p.2

namespace Generator

variable {g : Generator} {m : CodecModule}

/-- The type exports are named after the sorted definitions. -/
theorem names_types (h : g.compile = .ok m) :
    m.types.map Export.name = Order.names (sortDefinitions g.definitions) := by
  obtain ⟨schema, operations, hSchema, -, rfl⟩ := compile_eq_ok.mp h
  obtain ⟨memo, hBuilt, hTypes⟩ := compile_built hSchema
  rw [← GraphCodec.names_types hBuilt hTypes]
  simp [CodecModule.ofCodecs, Function.comp_def, Export.name_ofType]

/-- The exports of an operation have its index, and are named by `exportName`. -/
theorem blocks_of_operation (h : g.compile = .ok m) {i : Nat} {op : Operation}
    (hOp : g.operations[i]? = some op) :
    ∃ name, op.name = some name ∧ ∀ block, ∃ e, m.block? (.operation block i) = some e ∧
      e.name = OperationBlock.exportName block name op.kind := by
  obtain ⟨schema, operations, -, hOps, rfl⟩ := compile_eq_ok.mp h
  obtain ⟨p, hp, hCodecs⟩ := exists_getElem?_of_forall₂ (mapM_eq_ok.mp hOps).flip hOp
  obtain ⟨name, hName, hVars, hResponse⟩ := Operation.exported_of_codecs hCodecs
  refine ⟨name, hName, fun block => ?_⟩
  cases block with
  | vars => exact ⟨_, by simp [CodecModule.block?, CodecModule.ofCodecs, hp], hVars⟩
  | response => exact ⟨_, by simp [CodecModule.block?, CodecModule.ofCodecs, hp], hResponse⟩

/-- Every export outside the type section belongs to an operation. -/
theorem operation_of_block (h : g.compile = .ok m) {block : OperationBlock} {i : Nat} {e : Export}
    (he : m.block? (.operation block i) = some e) :
    ∃ op name, g.operations[i]? = some op ∧ op.name = some name ∧
      e.name = block.exportName name op.kind := by
  have hPlace : i < g.operations.length := by
    obtain ⟨schema, operations, -, hOps, rfl⟩ := compile_eq_ok.mp h
    rw [(mapM_eq_ok.mp hOps).length_eq]
    by_contra hOut
    cases block <;>
      simp [CodecModule.block?, CodecModule.ofCodecs, Nat.le_of_not_lt hOut] at he
  obtain ⟨name, hName, hBlocks⟩ := blocks_of_operation h (List.getElem?_eq_getElem hPlace)
  obtain ⟨e', he', hExport⟩ := hBlocks block
  obtain rfl : e = e' := by simpa [he] using he'
  exact ⟨_, name, List.getElem?_eq_getElem hPlace, hName, hExport⟩

/-- The type exports have distinct names, since sorting keeps one definition of each name. -/
theorem nodup_names_types (h : g.compile = .ok m) : (m.types.map Export.name).Nodup := by
  rw [names_types h]
  exact Order.names_sort_nodup g.definitions

theorem type_index_eq (h : g.compile = .ok m) {i j : Nat} {a b : Export}
    (ha : m.block? (.type i) = some a) (hb : m.block? (.type j) = some b)
    (hName : a.name = b.name) : i = j := by
  have ha' : (m.types.map Export.name)[i]? = some a.name := by
    rw [List.getElem?_map]
    exact congrArg (Option.map Export.name) ha
  have hb' : (m.types.map Export.name)[j]? = some a.name := by
    rw [List.getElem?_map, hName]
    exact congrArg (Option.map Export.name) hb
  have hPlace := (List.getElem?_eq_some_iff.mp ha').1
  exact (List.getElem?_inj hPlace (nodup_names_types h)).mp (ha'.trans hb'.symm)

/-- A type export is named after a definition. -/
theorem definition_of_type (h : g.compile = .ok m) {i : Nat} {e : Export}
    (he : m.block? (.type i) = some e) : ∃ d ∈ g.definitions, e.name = d.name := by
  have hMem : e.name ∈ m.types.map Export.name :=
    List.mem_map.mpr ⟨e, List.mem_of_getElem? he, rfl⟩
  rw [names_types h] at hMem
  obtain ⟨d, hd, hName⟩ := Order.mem_names.mp hMem
  exact ⟨d, Order.mem_of_mem_sort hd, hName.symm⟩

/-- No variables are exported under the identifier of a response. -/
theorem vars_name_ne (h : g.compile = .ok m) {v s : Export} (hv : v ∈ m.vars)
    (hs : s ∈ m.selections) : v.name ≠ s.name := by
  intro hName
  obtain ⟨i, hi⟩ : ∃ i, m.block? (.operation .vars i) = some v := List.mem_iff_getElem?.mp hv
  obtain ⟨j, hj⟩ : ∃ j, m.block? (.operation .response j) = some s := List.mem_iff_getElem?.mp hs
  obtain ⟨op, name, -, -, hVars⟩ := operation_of_block h hi
  obtain ⟨op', name', -, -, hResponse⟩ := operation_of_block h hj
  have hBlocks := OperationBlock.exportName_inj (hVars.symm.trans (hName.trans hResponse))
  cases hBlocks.1

/-- **Which exports collide**: those of homonymous operations, and a type with the identifier of an
operation's export. -/
theorem shared_name (h : g.compile = .ok m) {p q : BlockPlace} {a b : Export} (hpq : p ≠ q)
    (ha : m.block? p = some a) (hb : m.block? q = some b) (hName : a.name = b.name) :
    Namesakes g.operations p q ∨ TakesName g.operations p a ∨ TakesName g.operations q b := by
  cases p with
  | type i =>
      cases q with
      | type j => exact absurd (congrArg BlockPlace.type (type_index_eq h ha hb hName)) hpq
      | operation block j =>
          obtain ⟨op, name, hOp, hn, hExport⟩ := operation_of_block h hb
          exact Or.inr (Or.inl ⟨i, rfl, op, List.mem_of_getElem? hOp, name, block, hn,
            hName.trans hExport⟩)
  | operation block i =>
      obtain ⟨op, name, hOp, hn, hExport⟩ := operation_of_block h ha
      cases q with
      | type j =>
          exact Or.inr (Or.inr ⟨j, rfl, op, List.mem_of_getElem? hOp, name, block, hn,
            hName.symm.trans hExport⟩)
      | operation block' j =>
          obtain ⟨op', name', hOp', hn', hExport'⟩ := operation_of_block h hb
          obtain ⟨rfl, rfl, hKind⟩ :=
            OperationBlock.exportName_inj (hExport.symm.trans (hName.trans hExport'))
          exact Or.inl ⟨block, i, j, op, op', rfl, rfl, hOp, hOp', hn.trans hn'.symm, hKind⟩

/-- **The identifiers of a module.** Every export of a rendered text declares its name, as a
constant and as a type. The variables of an operation are exported under the identifier of its
response with the suffix `Variables`. Two exports collide only if they belong to operations of one
name and operation type, or if one is a type named like an export of an operation; so type exports
never collide with each other, nor variables with responses. -/
theorem render_export_names (g : Generator) (engine : TemplateEngine) (place : Place)
    (text : String) (hText : g.render engine place = .ok text) :
    ∃ m, g.compile = .ok m ∧ g.LaidOut engine place m text ∧
      (∀ e ∈ m.types ++ m.vars, Declares e.text e.name "") ∧
      (∀ e ∈ m.selections, Declares e.text e.name "['data']") ∧
      (∀ i op, g.operations[i]? = some op → ∃ name v s, op.name = some name ∧
        m.block? (.operation .vars i) = some v ∧ m.block? (.operation .response i) = some s ∧
        s.name = name ++ op.kind.title ∧ v.name = s.name ++ "Variables") ∧
      (∀ p q a b, p ≠ q → m.block? p = some a → m.block? q = some b → a.name = b.name →
        Namesakes g.operations p q ∨ TakesName g.operations p a ∨ TakesName g.operations q b) ∧
      (∀ i e, m.block? (.type i) = some e → ∃ d ∈ g.definitions, e.name = d.name) ∧
      (m.types.map Export.name).Nodup ∧
      ∀ v ∈ m.vars, ∀ s ∈ m.selections, v.name ≠ s.name := by
  obtain ⟨m, h, hLaidOut⟩ := laidOut_of_render hText
  obtain ⟨hDeclared, hDeclaredData⟩ : (∀ e ∈ m.types ++ m.vars, Declares e.text e.name "") ∧
      ∀ e ∈ m.selections, Declares e.text e.name "['data']" := by
    obtain ⟨schema, operations, -, -, rfl⟩ := compile_eq_ok.mp h
    exact CodecModule.declares_ofCodecs schema.types operations
  refine ⟨m, h, hLaidOut, hDeclared, hDeclaredData, ?_, fun p q a b => shared_name h,
    fun i e => definition_of_type h, nodup_names_types h, fun v hv s => vars_name_ne h hv⟩
  intro i op hOp
  obtain ⟨name, hName, hBlocks⟩ := blocks_of_operation h hOp
  obtain ⟨v, hv, hVars⟩ := hBlocks .vars
  obtain ⟨s, hs, hResponse⟩ := hBlocks .response
  refine ⟨name, v, s, hName, hv, hs, hResponse, ?_⟩
  rw [hVars, hResponse]
  rfl

end Generator

namespace Board

/-- The operation of the board twice, and a type named like its response. -/
def twins : Generator := ⟨⟨"BoardQuery", .scalar⟩ :: definitions, [operation, operation], {}, none⟩

def twinsSchema : Schema := ⟨.scalar "BoardQuery" :: schema.types⟩

theorem compile_twins : compileDefinitions twins.definitions = .ok twinsSchema := by cbv

/-- Three exports of the twins' module collide: the type and both responses. -/
theorem twins_export_names :
    ∃ text m, twins.render engine place = .ok text ∧
      (∃ a b c, m.block? (.type 0) = some a ∧ m.block? (.operation .response 0) = some b ∧
        m.block? (.operation .response 1) = some c ∧ a.name = "BoardQuery" ∧
        b.name = "BoardQuery" ∧ c.name = "BoardQuery" ∧
        a.text = "export const BoardQuery = t.any;\n" ++
          "export type BoardQuery = t.TypeOf<typeof BoardQuery>;\n") ∧
      twins.compile = .ok m ∧ twins.LaidOut engine place m text ∧
      (∀ e ∈ m.types ++ m.vars, Declares e.text e.name "") ∧
      (∀ e ∈ m.selections, Declares e.text e.name "['data']") ∧
      (∀ i op, twins.operations[i]? = some op → ∃ name v s, op.name = some name ∧
        m.block? (.operation .vars i) = some v ∧ m.block? (.operation .response i) = some s ∧
        s.name = name ++ op.kind.title ∧ v.name = s.name ++ "Variables") ∧
      (∀ p q a b, p ≠ q → m.block? p = some a → m.block? q = some b → a.name = b.name →
        Namesakes twins.operations p q ∨ TakesName twins.operations p a ∨
          TakesName twins.operations q b) ∧
      (∀ i e, m.block? (.type i) = some e → ∃ d ∈ twins.definitions, e.name = d.name) ∧
      (m.types.map Export.name).Nodup ∧
      ∀ v ∈ m.vars, ∀ s ∈ m.selections, v.name ≠ s.name := by
  obtain ⟨codecs, hCodecs⟩ := exists_eq_ok (x := operation.codecs twinsSchema) (by cbv)
  have hCompile : twins.compile = .ok (.ofCodecs twinsSchema.types [codecs, codecs]) :=
    Generator.compile_eq_ok.mpr ⟨twinsSchema, [codecs, codecs], compile_twins,
      mapM_eq_ok.mpr (.cons hCodecs (.cons hCodecs .nil)), rfl⟩
  have hRender : twins.render engine place = .ok _ :=
    Generator.render_of_builtin (Generator.template?_of_templates_eq_none rfl) hCompile
  obtain ⟨name, hName, -, hResponse⟩ := Operation.exported_of_codecs hCodecs
  cases hName
  obtain ⟨m, hm, hNames⟩ := Generator.render_export_names twins engine place _ hRender
  obtain rfl := Except.ok.inj (hCompile.symm.trans hm)
  exact ⟨_, _, hRender, ⟨_, _, _, rfl, rfl, rfl, rfl, hResponse, hResponse, by decide +kernel⟩, hm,
    hNames⟩

end Board

end GraphCodec
