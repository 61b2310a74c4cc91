import SharedState.Proofs.ModuleOrder

/-! The annotations that are read to build a graph, in order. A class and a module cannot be read exactly if one of theirs cannot be,
and a program breaks off at the first one. -/
namespace SharedState

open SharedState.Source SharedState.Text

namespace SelfAssignment

/-- The annotation that counts for an attribute; `params` are the parameters after the first. -/
def typeExpr? (params : List Parameter) (s : SelfAssignment) : Option Expr :=
  match s.type, s.value with
  | some e, _ => some e
  | none, some (.name id _) => parameterType? params id.text
  | none, _ => none

end SelfAssignment

def constructorAnnotations (params : Parameters) (body : List Stmt) : List Expr :=
  match params.regular with
  | [] => []
  | self :: others => (selfAssignmentsIn self.name body).filterMap (·.typeExpr? others)

/-- An accessor is annotated with what it returns. No other function of a class but its constructor is looked into. -/
def functionAnnotations (name : Identifier) (decorators : List Expr) (params : Parameters) (returns : Option Expr)
    (body : List Stmt) : List Expr :=
  let names := decorators.map decoratorName
  if names.any fun n => propertyDecorators.contains (leaf n) then returns.toList
  else if names.any (·.endsWith ".setter") then []
  else if names.any (·.endsWith ".deleter") then []
  else if name.text = "__init__" then constructorAnnotations params body
  else []

def statementAnnotations : Stmt → List Expr
  | .functionDef name decorators params returns body _ => functionAnnotations name decorators params returns body
  | .annAssign (.name _ _) type _ => [type]
  | _ => []

def ClassDecl.annotations (d : ClassDecl) : List Expr := d.body.flatMap statementAnnotations ++ d.bases

variable (p : Viewpoint) (d : ClassDecl)

def Viewpoint.fault? [CharacterNames] (e : Expr) : Option LiteralError := SharedState.fault? (p.reader.convert e)

variable {charset : CharacterNames}

theorem constructorFault (params : List Parameter) (s : SelfAssignment) :
    fault? (constructorType p params s) = (s.typeExpr? params).bind p.fault? := by
  unfold constructorType SelfAssignment.typeExpr?
  cases s.type with
  | some e => rfl
  | none =>
    cases s.value with
    | none => rfl
    | some v =>
      cases v with
      | name id start =>
        simp only
        cases parameterType? params id.text with
        | none => rfl
        | some e => exact faultMap _ _
      | _ => rfl

theorem findFiltered {α β γ : Type} (f : α → Option β) (g : β → Option γ) (xs : List α) :
    (xs.filterMap f).findSome? g = xs.findSome? fun x => (f x).bind g := by
  rw [← List.head?_filterMap, List.filterMap_filterMap, List.head?_filterMap]

theorem findFlat {α β γ : Type} (f : α → List β) (g : β → Option γ) (xs : List α) :
    (xs.flatMap f).findSome? g = xs.findSome? fun x => (f x).findSome? g := by
  simp only [← List.head?_filterMap (f := g), List.filterMap_flatMap, List.head?_flatMap]

theorem instanceFault (params : Parameters) (body : List Stmt) :
    fault? (instanceFields p d params body) = (constructorAnnotations params body).findSome? p.fault? := by
  unfold instanceFields constructorAnnotations
  cases params.regular with
  | nil => rfl
  | cons self others =>
    have each (s : SelfAssignment) : fault? (instanceField p d others s) = (s.typeExpr? others).bind p.fault? :=
      (faultFirst fun _ _ => ⟨_, rfl⟩).trans (constructorFault p others s)
    simp only [faultMapM, each, findFiltered]

theorem functionFault (name : Identifier) (decorators : List Expr) (params : Parameters) (returns : Option Expr)
    (body : List Stmt) (start : Position) :
    fault? (functionMembers p d name decorators params returns body start) =
      (functionAnnotations name decorators params returns body).findSome? p.fault? := by
  unfold functionMembers functionAnnotations
  simp only
  split
  · cases returns with
    | none => rfl
    | some e => exact (faultFirst fun _ _ => ⟨_, rfl⟩).trans (by simp [Viewpoint.fault?])
  · split
    · rfl
    · split
      · rfl
      · split
        · exact (faultFirst fun _ _ => ⟨_, rfl⟩).trans (instanceFault p d params body)
        · rfl

theorem statementFault (s : Stmt) : fault? (statementMembers p d s) = (statementAnnotations s).findSome? p.fault? := by
  cases s with
  | functionDef name decorators params returns body start => exact functionFault p d name decorators params returns body start
  | annAssign target type value =>
    cases target with
    | name id start =>
      exact (faultFirst fun _ _ => ⟨_, rfl⟩).trans (by simp [statementAnnotations, Viewpoint.fault?])
    | _ => rfl
  | _ => rfl

theorem elaborateFault : fault? (elaborateClass p d) = d.annotations.findSome? p.fault? := by
  have bases : fault? (d.bases.mapM p.reader.convert) = d.bases.findSome? p.fault? := faultMapM _ _
  have body : fault? (d.body.mapM (statementMembers p d)) = (d.body.flatMap statementAnnotations).findSome? p.fault? := by
    rw [faultMapM, findFlat]
    simp only [statementFault]
  unfold elaborateClass ClassDecl.annotations
  rw [List.findSome?_append, ← body, ← bases]
  exact faultBind fun _ _ => faultFirst fun _ _ => ⟨_, rfl⟩

namespace Program

/-- The values of a module that are read as types: those of the statements that declare aliases. -/
def aliasValues (m : Module) : List Expr :=
  m.body.filterMap fun s =>
    match s with
    | .annAssign _ _ (some value) => if declaresAlias m s then some value else none
    | _ => none

variable {charset : CharacterNames}

theorem bindingsFault (v : Vocabulary) (m : Module) :
    fault? (moduleBindings v m) = (aliasValues (registered m)).findSome? (Viewpoint.mk v (registered m) []).fault? := by
  unfold moduleBindings aliasValues
  rw [faultMap, faultMapM, findFiltered, registeredBody]
  congr 1
  funext s
  unfold statementBindings
  cases s with
  | annAssign target type value =>
    cases value with
    | none => rfl
    | some value =>
      simp only
      split
      · rw [faultFirst]
        · rfl
        · intro a _
          cases a.type <;> cases targetName? target <;> exact ⟨_, rfl⟩
      · rfl
  | _ => rfl

def annotations (p : Program) : List (Viewpoint × Expr) :=
  p.modules.flatMap (fun m => (aliasValues (registered m)).map fun e => (⟨p.vocabulary, registered m, []⟩, e)) ++
    p.decls.flatMap fun d =>
      match p.modules[d.module]? with
      | some m => d.annotations.map fun e => (⟨p.vocabulary, registered m, d.scope⟩, e)
      | none => []

def annotationFault? [CharacterNames] (p : Program) : Option LiteralError := p.annotations.findSome? fun a => a.1.fault? a.2

theorem annotationsFault (p : Program) :
    p.annotationFault? = (fault? (p.modules.mapM (moduleBindings p.vocabulary))).or
      (fault? (p.decls.mapM (elaborate { p with modules := p.modules.map registered }))) := by
  unfold annotationFault? annotations
  rw [List.findSome?_append, findFlat, findFlat, faultMapM, faultMapM]
  congr 2
  · funext m
    rw [List.findSome?_map, bindingsFault]
    rfl
  · funext d
    have found : (p.modules.map registered)[d.module]? = p.modules[d.module]?.map registered := List.getElem?_map ..
    unfold elaborate
    rw [found]
    cases p.modules[d.module]? with
    | none => rfl
    | some m =>
      simp only [List.findSome?_map]
      exact (elaborateFault _ _).symm

/- A program that is read has a graph or not, but no literal is to blame. -/
theorem buildLiteral (p : Program) (e : LiteralError) : p.build.2 = .error (.literal e) ↔ p.annotationFault? = some e := by
  have bound := bindModulesApply p p.modules {}
  rw [annotationsFault]
  cases top : p.modules.mapM (moduleBindings p.vocabulary) with
  | error e' =>
    rw [top] at bound
    simp [build, bound, Except.map, fault?]
  | ok bs =>
    rw [top] at bound
    have modules := bindModulesRegister bound
    simp only [build, bound, modules, Except.map, graphOf, fault?, Option.none_or]
    cases p.decls.mapM (elaborate { p with modules := p.modules.map registered }) with
    | error e' => simp
    | ok entries =>
      simp only
      split
      · simp
      · simp

end Program
end SharedState
