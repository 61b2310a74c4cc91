import SharedState.Program.Build
import SharedState.Proofs.Bindings
import SharedState.Proofs.Names

/-! What names mean in a module. The tables of a module hold dotted names and words only, so a dotted name stands for a
dotted name from wherever it is read. -/
namespace SharedState

open SharedState.Source SharedState.Text

namespace Source.DottedPath

theorem textWords (p : DottedPath) : p.text = dotted (p.first.text :: p.others.map (·.text)) := rfl

theorem othersPlain (p : DottedPath) : ∀ w ∈ p.others.map (·.text), PlainWord w := by
  intro w member
  obtain ⟨id, _, rfl⟩ := List.mem_map.1 member
  exact id.plain

theorem wordsPlain (p : DottedPath) : ∀ w ∈ p.first.text :: p.others.map (·.text), PlainWord w := by
  intro w member
  rcases List.mem_cons.1 member with rfl | later
  · exact p.first.plain
  · exact p.othersPlain w later

theorem textDotted (p : DottedPath) : DottedName p.text :=
  dottedWords ⟨p.first.plain.1, .inl p.first.plain.2⟩ p.othersPlain

theorem componentsText (p : DottedPath) : components p.text = p.first.text :: p.others.map (·.text) :=
  componentsWords (dottedSpelled _ _) fun w member => (p.wordsPlain w member).1

end Source.DottedPath

theorem plainDotted {id : Identifier} : DottedName id.text := dottedWord ⟨id.plain.1, .inl id.plain.2⟩

/-! Imports. -/

theorem takeSignedMember {α : Type} {count : Int} {xs : List α} {x : α} (member : x ∈ takeSigned count xs) : x ∈ xs := by
  unfold takeSigned at member
  split at member
  · exact List.mem_of_mem_take member
  · exact List.mem_of_mem_take member

theorem importSourceDotted (path : DottedPath) (isPackage : Bool) (level : Nat) (source : Option DottedPath) :
    let found := importSource path.text isPackage level ((source.map (·.text)).getD "")
    found = "" ∨ DottedName found := by
  intro found
  have filled : ∀ p : DottedPath, p.text.isEmpty = false := fun p => by simpa using dottedNonempty p.textDotted
  unfold found importSource
  split
  · cases source with
    | none => exact .inl rfl
    | some p => exact .inr p.textDotted
  · simp only
    generalize listed : List.filter _ _ = base
    have plain : ∀ w ∈ base, PlainWord w := by
      intro w member
      rw [← listed] at member
      have inside := (List.mem_filter.1 member).1
      have known : w ∈ components path.text := by
        split at inside
        · have package := takeSignedMember inside
          split at package
          · exact package
          · exact List.dropLast_subset _ package
        · split at inside
          · exact inside
          · exact List.dropLast_subset _ inside
      rw [path.componentsText] at known
      exact path.wordsPlain w known
    cases source with
    | none =>
      cases base with
      | nil => exact .inl rfl
      | cons w base =>
        have first := plain w (by simp)
        refine .inr ?_
        simpa using dottedWords ⟨first.1, .inl first.2⟩ fun v member => plain v (by simp [member])
    | some p =>
      refine .inr ?_
      simp only [Option.map_some, Option.getD_some, filled, Bool.false_eq_true, if_false]
      cases base with
      | nil => simpa [dotted] using p.textDotted
      | cons w base =>
        have first := plain w (by simp)
        have front : DottedName (dotted (w :: base)) :=
          dottedWords ⟨first.1, .inl first.2⟩ fun v member => plain v (by simp [member])
        have joined := dottedJoin front (by simp) p.wordsPlain
        rwa [← p.textWords, dotted, ← String.intercalate_singleton (s := ".") (t := p.text),
          ← String.intercalate_append_of_ne_nil (by simp) (by simp)] at joined

/-- Every name that is imported stands for a dotted name. -/
def Imported (imports : List (String × String)) : Prop := ∀ i ∈ imports, DottedName i.2

theorem importedBind {imports : List (String × String)} (imported : Imported imports) (key : String) {target : String}
    (name : DottedName target) : Imported (bindKey key target imports) := by
  intro i member
  rcases memBindKey member with rfl | old
  · exact name
  · exact imported i old

theorem addImportsDotted (path : DottedPath) (isPackage : Bool) {imports : List (String × String)}
    (imported : Imported imports) (s : Stmt) : Imported (addImports path.text isPackage imports s) := by
  cases s with
  | importNames names =>
    rw [addImports]
    induction names generalizing imports with
    | nil => exact imported
    | cons n names ih =>
      rw [List.foldl_cons]
      refine ih ?_
      cases n.asName with
      | some given => exact importedBind imported given n.name.textDotted
      | none => exact importedBind imported _ plainDotted
  | importFrom level source names =>
    cases names with
    | none => exact imported
    | some names =>
      rw [addImports]
      have origin := importSourceDotted path isPackage level source
      simp only at origin ⊢
      generalize importSource path.text isPackage level _ = found at origin ⊢
      induction names generalizing imports with
      | nil => exact imported
      | cons n names ih =>
        rw [List.foldl_cons]
        refine ih (importedBind imported _ ?_)
        rcases origin with rfl | name
        · exact n.name.textDotted
        · have filled : found.isEmpty = false := by simpa using dottedNonempty name
          rw [filled]
          exact dottedJoin name (by simp) n.name.wordsPlain
  | _ => exact imported

theorem moduleImportsDotted (path : DottedPath) (isPackage : Bool) (body : List Stmt) :
    Imported (moduleImports path.text isPackage body) := by
  have grows : ∀ imports, Imported imports → Imported (body.foldl (addImports path.text isPackage) imports) := by
    induction body with
    | nil => exact fun imports imported => imported
    | cons s body ih => exact fun imports imported => ih _ (addImportsDotted path isPackage imported s)
  exact grows [] (by simp [Imported])

/-! Resolution. -/

namespace Module

/-- A module whose tables give meanings to names that are dotted names, and whose aliases are words. -/
structure Regular (m : Module) : Prop where
  named : ∃ path : DottedPath, m.name = path.text
  classes : ∀ c ∈ m.classes, DottedName c.2
  aliases : ∀ a ∈ m.aliases, PlainWord a
  imports : Imported m.imports

variable {m : Module}

theorem scopedClassFrom {name found : String} {depth : Nat} {scope : List String}
    (done : m.scopedClass? name depth scope = some found) : ∃ key, (key, found) ∈ m.classes := by
  induction depth with
  | zero =>
    unfold scopedClass? at done
    split at done
    · rename_i bound
      cases Option.some.inj done
      exact ⟨_, valueOfKey bound⟩
    · cases done
  | succ depth ih =>
    unfold scopedClass? at done
    split at done
    · rename_i bound
      cases Option.some.inj done
      exact ⟨_, valueOfKey bound⟩
    · exact ih done

theorem nameDotted (regular : m.Regular) : DottedName m.name := by
  obtain ⟨path, named⟩ := regular.named
  rw [named]
  exact path.textDotted

theorem resolveDotted (regular : m.Regular) (scope : List String) {n : String} (name : DottedName n) :
    DottedName (m.resolve scope n) := by
  unfold resolve
  split
  · rename_i found
    obtain ⟨key, known⟩ := scopedClassFrom found
    exact regular.classes _ known
  · split
    · rename_i listed
      exact dottedAccess (nameDotted regular) (regular.aliases n (by simpa using listed))
    · split
      · rename_i target bound
        have front := regular.imports _ (valueOfKey bound)
        obtain ⟨first, others, parts, _, plain⟩ := componentsDotted name
        have tail : tailParts n = dotted others := by rw [tailParts, parts, List.tail_cons]
        split
        · exact front
        · rename_i filled
          have some : others ≠ [] := by
            rintro rfl
            exact filled (by rw [tail]; rfl)
          rw [tail]
          exact dottedJoin front some plain
      · exact name

theorem resolveMaybe (regular : m.Regular) (scope : List String) {n : String} (name : n = "" ∨ DottedName n) :
    m.resolve scope n = "" ∨ DottedName (m.resolve scope n) := by
  rcases name with rfl | name
  · unfold resolve
    split
    · rename_i found
      obtain ⟨key, known⟩ := scopedClassFrom found
      exact .inr (regular.classes _ known)
    · split
      · rename_i listed
        exact absurd rfl (wordNonempty (regular.aliases "" (by simpa using listed)).1)
      · split
        · rename_i target bound
          exact .inr (regular.imports _ (valueOfKey bound))
        · exact .inl rfl
  · exact .inr (resolveDotted regular scope name)

end Module

namespace Program

theorem targetPlain {e : Expr} {id : String} (target : targetName? e = some id) : PlainWord id := by
  cases e with
  | name word start =>
    cases Option.some.inj target
    exact word.plain
  | _ => cases target

theorem aliasNamesPlain {m : Module} {s : Stmt} : ∀ a ∈ aliasNames m s, PlainWord a := by
  intro a member
  unfold aliasNames at member
  split at member
  · split at member
    · exact targetPlain (Option.mem_toList.1 member)
    · cases member
  · split at member
    · obtain ⟨target, _, named⟩ := List.mem_filterMap.1 member
      exact targetPlain named
    · cases member
  · cases member

theorem addNamesPlain {names known : List String} (fresh : ∀ a ∈ names, PlainWord a) (plain : ∀ a ∈ known, PlainWord a) :
    ∀ a ∈ names.foldl addName known, PlainWord a := by
  induction names generalizing known with
  | nil => exact plain
  | cons n names ih =>
    refine ih (fun a member => fresh a (by simp [member])) fun a member => ?_
    unfold addName at member
    split at member
    · exact plain a member
    · rcases List.mem_append.1 member with old | new
      · exact plain a old
      · rw [List.mem_singleton.1 new]
        exact fresh n (by simp)

theorem registerRegular {m : Module} (regular : m.Regular) (s : Stmt) : (registerAliases m s).Regular :=
  ⟨regular.named, regular.classes, addNamesPlain aliasNamesPlain regular.aliases, regular.imports⟩

theorem registerAllRegular {m : Module} (regular : m.Regular) (body : List Stmt) : (body.foldl registerAliases m).Regular := by
  induction body generalizing m with
  | nil => exact regular
  | cons s body ih => exact ih (registerRegular regular s)

end Program
end SharedState
