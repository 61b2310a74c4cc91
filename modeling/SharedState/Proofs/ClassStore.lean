import SharedState.Proofs.Rearrangement

/-! The classes of a graph, by name and by identity. A graph is refused exactly if one of its classes is a symbol of another kind, two
of them have one dotted name, or an owner is not among them. Otherwise names and classes belong together one to one, and whatever leads
from types to classes stays within the graph. -/
namespace SharedState.Graph

/-- What stands in the way of a graph, under the error that tells it. Two classes clash by their dotted names, wherever these are
divided between a class and those around it. -/
inductive Obstacle (classes : List ClassEntry) (owners : List Symbol) : GraphError → Prop where
  | kind {e : ClassEntry} (here : e ∈ classes) (other : e.symbol.isClass = false) :
    Obstacle classes owners (.notAClass e.symbol.qualifiedName)
  | name {i j : Nat} {e f : ClassEntry} (order : i < j) (first : classes[i]? = some e) (second : classes[j]? = some f)
    (same : e.symbol.qualifiedName = f.symbol.qualifiedName) : Obstacle classes owners (.duplicateClass f.symbol.qualifiedName)
  | owner {s : Symbol} (here : s ∈ owners) (unknown : ∀ e ∈ classes, e.symbol ≠ s) :
    Obstacle classes owners (.unknownOwner s.qualifiedName)

variable {classes : List ClassEntry} {aliases : List (String × TypeRef)} {owners : List Symbol}

theorem clearIff : (¬ ∃ err, Obstacle classes owners err) ↔ (∀ e ∈ classes, e.symbol.isClass = true) ∧
    (classes.map (·.symbol.qualifiedName)).Nodup ∧ ∀ s ∈ owners, ∃ e ∈ classes, e.symbol = s := by
  constructor
  · intro clear
    refine ⟨?_, ?_, ?_⟩
    · intro e here
      by_contra other
      exact clear ⟨_, .kind here (by simpa using other)⟩
    · rw [List.nodup_iff_getElem?_ne_getElem?]
      intro i j order inside same
      rw [List.length_map] at inside
      have before : i < classes.length := by omega
      rw [List.getElem?_map, List.getElem?_map, List.getElem?_eq_getElem before, List.getElem?_eq_getElem inside] at same
      exact clear ⟨_, .name order (List.getElem?_eq_getElem before) (List.getElem?_eq_getElem inside) (Option.some.inj same)⟩
    · intro s here
      by_contra unknown
      exact clear ⟨_, .owner here fun e there same => unknown ⟨e, there, same⟩⟩
  · rintro ⟨kinds, names, known⟩ ⟨err, obstacle⟩
    cases obstacle with
    | kind here other =>
      rw [kinds _ here] at other
      cases other
    | @name i j e f order first second same =>
      have inside : j < classes.length := (List.getElem?_eq_some_iff.1 second).1
      refine List.nodup_iff_getElem?_ne_getElem?.1 names i j order (by simpa using inside) ?_
      rw [List.getElem?_map, List.getElem?_map, first, second]
      exact congrArg some same
    | owner here unknown =>
      obtain ⟨e, there, same⟩ := known _ here
      exact unknown e there same

theorem classesRefused {err : GraphError} (failed : classes.foldlM addClass empty = .error err) : Obstacle classes owners err := by
  obtain ⟨before, e, after, g, rfl, done, failed⟩ := foldlMFault.1 failed
  obtain ⟨rfl, _⟩ := classesAdded done (by simp [empty])
  rcases addClassCases _ e with ⟨other, step⟩ | ⟨⟨f, known, same⟩, step⟩ | ⟨_, _, step⟩
  · rw [step] at failed
    cases failed
    exact .kind (by simp) other
  · rw [step] at failed
    cases failed
    obtain ⟨i, inside, found⟩ := List.mem_iff_getElem.1 (show f ∈ before by simpa [empty] using known)
    refine .name inside (e := f) ?_ (by simp) same
    rw [List.getElem?_append_left inside, List.getElem?_eq_getElem inside, found]
  · rw [step] at failed
    cases failed

theorem ownersRefused {g : Graph} {err : GraphError} (failed : owners.foldlM addOwner g = .error err) (none : g.staticOwners = []) :
    Obstacle g.entries owners err := by
  obtain ⟨before, s, after, h, rfl, done, failed⟩ := foldlMFault.1 failed
  obtain ⟨entries, _⟩ := ownersAdded done [] none (by simp)
  rcases h.addOwnerCases s with ⟨unknown, step⟩ | ⟨_, _, step⟩ | ⟨_, _, step⟩
  · rw [step] at failed
    cases failed
    exact .owner (by simp) (entries ▸ unknown)
  · rw [step] at failed
    cases failed
  · rw [step] at failed
    cases failed

theorem buildRefused {err : GraphError} (failed : build classes aliases owners = .error err) : Obstacle classes owners err := by
  unfold build at failed
  cases added : classes.foldlM addClass empty with
  | error e =>
    rw [added] at failed
    cases failed
    exact classesRefused added
  | ok g =>
    rw [added] at failed
    obtain ⟨rfl, _⟩ := classesAdded added (by simp [empty])
    exact ownersRefused failed rfl

/-- What a graph keeps of the classes and owners that it is made from, and how these are found in it: by dotted name with `lookup`, by
identity with `entry?`. -/
structure Keeps (classes : List ClassEntry) (owners : List Symbol) (g : Graph) : Prop where
  entries : g.entries = classes
  owners : g.staticOwners = owners.eraseDups
  named : ∀ e ∈ g.entries, g.lookup e.symbol.qualifiedName = some e.symbol
  unnamed : ∀ name, (∀ e ∈ g.entries, e.symbol.qualifiedName ≠ name) → g.lookup name = none
  identified : ∀ e ∈ g.entries, g.entry? e.symbol = some e
  inverse : ∀ name s, g.lookup name = some s ↔ (g.entry? s).isSome = true ∧ s.qualifiedName = name
  denoted : ∀ declared, ∀ s ∈ g.typeClasses declared, s ∈ g.entries.map (·.symbol)
  derived : ∀ c, ∀ s ∈ g.parentClasses c, s ∈ g.entries.map (·.symbol)

theorem entrySomeIff {g : Graph} {s : Symbol} : (g.entry? s).isSome = true ↔ s ∈ g.entries.map (·.symbol) := by
  unfold entry?
  simp

theorem buildKept {g : Graph} (done : build classes aliases owners = .ok g) : g.Keeps classes owners where
  entries := (buildSource done).entries
  owners := (buildFirst done).2
  named := fun e known => lookupFound (buildSource done).names known
  unnamed := by
    intro name free
    cases found : g.lookup name with
    | none => rfl
    | some s =>
      obtain ⟨e, known, rfl, named⟩ := lookupKnown found
      exact absurd named (free e known)
  identified := fun e known => entryFound (buildSource done).names known
  inverse := by
    intro name s
    rw [lookupIff (buildSource done).names, entrySomeIff]
  denoted := fun _ _ => Scanner.typeClassesKnown
  derived := fun _ _ => Scanner.parentClassesKnown

/- Refusal and success leave nothing between them, and an error names what is wrong. -/
theorem storeConsistent (classes : List ClassEntry) (aliases : List (String × TypeRef)) (owners : List Symbol) :
    ((∃ err, build classes aliases owners = .error err) ↔ ∃ err, Obstacle classes owners err) ∧
    (∀ err, build classes aliases owners = .error err → Obstacle classes owners err) ∧
    ((¬ ∃ err, Obstacle classes owners err) → ∃ g, build classes aliases owners = .ok g ∧ g.Keeps classes owners) := by
  refine ⟨⟨?_, ?_⟩, fun err failed => buildRefused failed, ?_⟩
  · rintro ⟨err, failed⟩
    exact ⟨err, buildRefused failed⟩
  · intro obstructed
    cases done : build classes aliases owners with
    | error err => exact ⟨err, rfl⟩
    | ok g =>
      have source := buildSource done
      have known : ∀ s ∈ owners, ∃ e ∈ g.entries, e.symbol = s := fun s here =>
        source.ownersKnown s (((buildParts done).2 s).2 here)
      refine absurd obstructed (clearIff.2 ?_)
      rw [← source.entries]
      exact ⟨source.kinds, source.names, known⟩
  · intro clear
    obtain ⟨kinds, names, known⟩ := clearIff.1 clear
    obtain ⟨g, done⟩ := buildSucceeds aliases kinds names known
    exact ⟨g, done, buildKept done⟩

def outerClass : Symbol := { serial := 0, name := "app.Outer", kind := .plainClass }

def innerClass : Symbol := outerClass.inside { serial := 1, name := "Inner", kind := .plainClass }

/- The name of the inner class, with nothing around it. -/
def undividedClass : Symbol := { serial := 2, name := "app.Outer.Inner", kind := .plainClass }

def innerEntry : ClassEntry := { symbol := innerClass, parents := [.union [.named "I", .named "app.Outer"]] }

def nestedClasses : List ClassEntry := [{ symbol := outerClass }, innerEntry]

/- An owner is given twice; a class repeats a dotted name that is divided otherwise; an owner differs from a class by its identity
alone. -/
theorem nestedStore :
    (∃ g, build nestedClasses [("I", .named "app.Outer.Inner")] [innerClass, outerClass, innerClass] = .ok g ∧
      g.staticOwners = [innerClass, outerClass] ∧ g.lookup "app.Outer.Inner" = some innerClass ∧ g.lookup "Inner" = none) ∧
    (undividedClass ≠ innerClass ∧ ∃ err, build (nestedClasses ++ [{ symbol := undividedClass }]) [] [] = .error err) ∧
    ∃ err, build nestedClasses [] [{ outerClass with serial := 3 }] = .error err := by
  have clear : ¬ ∃ err, Obstacle nestedClasses [innerClass, outerClass, innerClass] err := clearIff.2 (by decide +kernel)
  have first : [innerClass, outerClass, innerClass].eraseDups = [innerClass, outerClass] := by decide +kernel
  have name : innerClass.qualifiedName = "app.Outer.Inner" := by decide +kernel
  refine ⟨?_, ⟨by decide +kernel, ?_⟩, ?_⟩
  · obtain ⟨g, done, kept⟩ := (storeConsistent nestedClasses [("I", .named "app.Outer.Inner")] _).2.2 clear
    refine ⟨g, done, kept.owners.trans first, ?_, kept.unnamed "Inner" ?_⟩
    · rw [← name]
      exact kept.named innerEntry (by simp [kept.entries, nestedClasses])
    · rw [kept.entries]
      decide +kernel
  · refine (storeConsistent _ [] []).1.2 ⟨_, .name (i := 1) (j := 2) (by decide) rfl rfl ?_⟩
    decide +kernel
  · exact (storeConsistent nestedClasses [] _).1.2 ⟨_, .owner (List.mem_singleton_self _) (by decide +kernel)⟩

end SharedState.Graph
