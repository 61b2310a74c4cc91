import Mathlib.Data.List.Find
import SharedState.Graph
import SharedState.Proofs.Attempts
import SharedState.Proofs.Widening

/-! Building a graph succeeds on classes with distinct names and on owners among them, and gives these back. -/
namespace SharedState

theorem findKey {α : Type} {key : α → String} {xs : List α} (distinct : (xs.map key).Nodup) {x : α} (member : x ∈ xs) :
    xs.find? (fun y => key y == key x) = some x := by
  induction xs with
  | nil => simp at member
  | cons y xs ih =>
    obtain ⟨fresh, rest⟩ := List.nodup_cons.1 distinct
    rcases List.mem_cons.1 member with rfl | later
    · simp
    · have other : (key y == key x) = false := by
        rw [beq_eq_false_iff_ne]
        intro same
        exact fresh (List.mem_map.2 ⟨x, later, same.symm⟩)
      rw [List.find?_cons, other]
      exact ih rest later

theorem findKeyPerm {α : Type} {key : α → String} {xs ys : List α} (order : xs.Perm ys) (distinct : (xs.map key).Nodup)
    (name : String) : xs.find? (fun x => key x == name) = ys.find? fun x => key x == name := by
  refine List.find?_eq_find?_of_perm order ?_
  rintro a ⟨here, named⟩ b ⟨there, same⟩
  simp only [beq_iff_eq] at named same
  exact List.inj_on_of_nodup_map distinct here there (named.trans same.symm)

namespace Graph

/- What becomes of one more class. -/
theorem addClassCases (g : Graph) (e : ClassEntry) :
    e.symbol.isClass = false ∧ g.addClass e = .error (.notAClass e.symbol.qualifiedName) ∨
    (∃ f ∈ g.entries, f.symbol.qualifiedName = e.symbol.qualifiedName) ∧
      g.addClass e = .error (.duplicateClass e.symbol.qualifiedName) ∨
    e.symbol.isClass = true ∧ (∀ f ∈ g.entries, f.symbol.qualifiedName ≠ e.symbol.qualifiedName) ∧
      g.addClass e = .ok { g with entries := g.entries ++ [e] } := by
  have taken : (g.lookup e.symbol.qualifiedName).isSome = true ↔
      ∃ f ∈ g.entries, f.symbol.qualifiedName = e.symbol.qualifiedName := by simp [lookup]
  cases isClass : e.symbol.isClass with
  | false => exact .inl ⟨rfl, by simp [addClass, isClass]⟩
  | true =>
    by_cases known : (g.lookup e.symbol.qualifiedName).isSome = true
    · exact .inr (.inl ⟨taken.1 known, by simp [addClass, isClass, known]⟩)
    · refine .inr (.inr ⟨rfl, fun f here same => known (taken.2 ⟨f, here, same⟩), ?_⟩)
      rw [addClass, isClass, if_neg known]
      rfl

/- What becomes of one more owner. -/
theorem addOwnerCases (g : Graph) (s : Symbol) :
    (∀ e ∈ g.entries, e.symbol ≠ s) ∧ g.addOwner s = .error (.unknownOwner s.qualifiedName) ∨
    (∃ e ∈ g.entries, e.symbol = s) ∧ s ∈ g.staticOwners ∧ g.addOwner s = .ok g ∨
    (∃ e ∈ g.entries, e.symbol = s) ∧ s ∉ g.staticOwners ∧
      g.addOwner s = .ok { g with staticOwners := g.staticOwners ++ [s] } := by
  have missing : (g.entry? s).isNone = true ↔ ∀ e ∈ g.entries, e.symbol ≠ s := by
    unfold entry?
    simp
  by_cases unknown : (g.entry? s).isNone = true
  · exact .inl ⟨missing.1 unknown, by rw [addOwner, if_pos unknown]⟩
  · have known : ∃ e ∈ g.entries, e.symbol = s := by
      by_contra none
      exact unknown (missing.2 fun e here same => none ⟨e, here, same⟩)
    by_cases old : s ∈ g.staticOwners
    · exact .inr (.inl ⟨known, old, by rw [addOwner, if_neg unknown, if_pos old]⟩)
    · exact .inr (.inr ⟨known, old, by rw [addOwner, if_neg unknown, if_neg old]⟩)

theorem addClasses (classes : List ClassEntry) (g : Graph) (isClass : ∀ e ∈ classes, e.symbol.isClass = true)
    (distinct : ((g.entries ++ classes).map (·.symbol.qualifiedName)).Nodup) :
    classes.foldlM addClass g = .ok { g with entries := g.entries ++ classes } := by
  induction classes generalizing g with
  | nil => simp [pure, Except.pure]
  | cons e classes ih =>
    rcases g.addClassCases e with ⟨other, _⟩ | ⟨⟨f, known, same⟩, _⟩ | ⟨_, _, step⟩
    · rw [isClass e (by simp)] at other
      cases other
    · rw [List.map_append, List.nodup_append] at distinct
      exact absurd same (distinct.2.2 _ (List.mem_map_of_mem known) _ (by simp))
    · rw [List.foldlM_cons, step]
      simp only [bind, Except.bind]
      rw [ih _ (fun f member => isClass f (by simp [member])) (by simpa using distinct)]
      simp

theorem addOwners (owners : List Symbol) (g : Graph) (known : ∀ s ∈ owners, ∃ e ∈ g.entries, e.symbol = s)
    (distinct : (g.staticOwners ++ owners).Nodup) :
    owners.foldlM addOwner g = .ok { g with staticOwners := g.staticOwners ++ owners } := by
  induction owners generalizing g with
  | nil => simp [pure, Except.pure]
  | cons s owners ih =>
    obtain ⟨e, here, same⟩ := known s (by simp)
    have fresh : s ∉ g.staticOwners := fun old => (List.nodup_append.1 distinct).2.2 s old s (by simp) rfl
    rcases g.addOwnerCases s with ⟨unknown, _⟩ | ⟨_, old, _⟩ | ⟨_, _, step⟩
    · exact absurd same (unknown e here)
    · exact absurd old fresh
    · rw [List.foldlM_cons, step]
      simp only [bind, Except.bind]
      rw [ih { g with staticOwners := g.staticOwners ++ [s] } (fun f member => known f (by simp [member]))
        (by simpa using distinct)]
      simp

theorem buildOk {g : Graph} (isClass : ∀ e ∈ g.entries, e.symbol.isClass = true)
    (names : (g.entries.map (·.symbol.qualifiedName)).Nodup) (aliases : (g.aliases.map (·.1)).Nodup)
    (owners : g.staticOwners.Nodup) (known : ∀ s ∈ g.staticOwners, ∃ e ∈ g.entries, e.symbol = s) :
    build g.entries g.aliases g.staticOwners = .ok g := by
  rw [build, addClasses g.entries empty isClass (by simpa [empty] using names)]
  simp only [bind, Except.bind]
  rw [bindAllFresh _ _ (by simpa using aliases), addOwners _ _ (by simpa [empty] using known) (by simpa [empty] using owners)]
  rfl

theorem classesAdded {classes : List ClassEntry} {g g' : Graph} (done : classes.foldlM addClass g = .ok g')
    (distinct : (g.entries.map (·.symbol.qualifiedName)).Nodup) :
    g' = { g with entries := g.entries ++ classes } ∧ (∀ e ∈ classes, e.symbol.isClass = true) ∧
      (g'.entries.map (·.symbol.qualifiedName)).Nodup := by
  induction classes generalizing g with
  | nil =>
    cases Except.ok.inj done
    exact ⟨by simp, by simp, distinct⟩
  | cons e classes ih =>
    rw [List.foldlM_cons] at done
    rcases g.addClassCases e with ⟨_, step⟩ | ⟨_, step⟩ | ⟨isClass, fresh, step⟩
    · rw [step] at done; cases done
    · rw [step] at done; cases done
    · rw [step] at done
      have kept : ((g.entries ++ [e]).map (·.symbol.qualifiedName)).Nodup := by
        rw [List.map_append, List.nodup_append]
        refine ⟨distinct, by simp, ?_⟩
        rintro name known _ last rfl
        obtain ⟨f, inside, same⟩ := List.mem_map.1 known
        exact fresh f inside (same.trans (List.mem_singleton.1 last))
      obtain ⟨same, others, names⟩ := ih done kept
      refine ⟨by simpa using same, fun f member => ?_, names⟩
      rcases List.mem_cons.1 member with rfl | later
      · exact isClass
      · exact others f later

/- Owners are listed once, where they come first; `seen` are those given before. -/
theorem ownersAdded {owners : List Symbol} {g g' : Graph} (done : owners.foldlM addOwner g = .ok g') (seen : List Symbol)
    (listed : g.staticOwners = seen.eraseDups) (known : ∀ s ∈ seen, ∃ e ∈ g.entries, e.symbol = s) :
    g'.entries = g.entries ∧ g'.aliases = g.aliases ∧ g'.staticOwners = (seen ++ owners).eraseDups ∧
      ∀ s ∈ seen ++ owners, ∃ e ∈ g.entries, e.symbol = s := by
  induction owners generalizing g seen with
  | nil =>
    cases Except.ok.inj done
    rw [List.append_nil]
    exact ⟨rfl, rfl, listed, known⟩
  | cons s owners ih =>
    rw [List.foldlM_cons] at done
    rw [← List.singleton_append, ← List.append_assoc]
    have more (found : ∃ e ∈ g.entries, e.symbol = s) : ∀ t ∈ seen ++ [s], ∃ e ∈ g.entries, e.symbol = t := by
      intro t member
      rcases List.mem_append.1 member with old | new
      · exact known t old
      · exact List.mem_singleton.1 new ▸ found
    rcases g.addOwnerCases s with ⟨_, step⟩ | ⟨found, old, step⟩ | ⟨found, fresh, step⟩
    · rw [step] at done; cases done
    · rw [step] at done
      rw [listed, List.mem_eraseDups] at old
      exact ih done (seen ++ [s]) (by rw [eraseDupsLast, if_pos old, listed]) (more found)
    · rw [step] at done
      rw [listed, List.mem_eraseDups] at fresh
      have rest := ih done (seen ++ [s]) (by rw [eraseDupsLast, if_neg fresh, listed]) (more found)
      exact rest

structure Built (classes : List ClassEntry) (aliases : List (String × TypeRef)) (g : Graph) : Prop where
  entries : g.entries = classes
  kinds : ∀ e ∈ g.entries, e.symbol.isClass = true
  names : (g.entries.map (·.symbol.qualifiedName)).Nodup
  keys : (g.aliases.map (·.1)).Nodup
  aliases : ∀ a ∈ g.aliases, a ∈ aliases
  owners : g.staticOwners.Nodup
  ownersKnown : ∀ s ∈ g.staticOwners, ∃ e ∈ g.entries, e.symbol = s

theorem buildSource {classes : List ClassEntry} {aliases : List (String × TypeRef)} {owners : List Symbol} {g : Graph}
    (done : build classes aliases owners = .ok g) : Built classes aliases g := by
  unfold build at done
  cases added : classes.foldlM addClass empty with
  | error e => rw [added] at done; cases done
  | ok h =>
    rw [added] at done
    obtain ⟨rfl, kinds, names⟩ := classesAdded added (by simp [empty])
    obtain ⟨entries, table, first, known⟩ := ownersAdded done [] rfl (by simp)
    obtain ⟨keys, bound⟩ := bindAllKept aliases [] (by simp)
    have listed : g.entries = classes := by simpa [empty] using entries
    refine ⟨listed, listed ▸ kinds, ?_, table ▸ keys, fun a member => ?_, first ▸ eraseDupsNodup _, fun s member => ?_⟩
    · rw [listed]
      simpa [empty] using names
    · rw [table] at member
      exact (bound a member).resolve_right (by simp)
    · rw [entries]
      exact known s (by simpa [first] using member)

theorem ownersAdd (owners : List Symbol) (g : Graph) (known : ∀ s ∈ owners, ∃ e ∈ g.entries, e.symbol = s) :
    ∃ g', owners.foldlM addOwner g = .ok g' := by
  induction owners generalizing g with
  | nil => exact ⟨g, rfl⟩
  | cons s owners ih =>
    obtain ⟨e, here, same⟩ := known s (by simp)
    have others : ∀ t ∈ owners, ∃ e ∈ g.entries, e.symbol = t := fun t member => known t (by simp [member])
    rw [List.foldlM_cons]
    rcases g.addOwnerCases s with ⟨unknown, _⟩ | ⟨_, _, step⟩ | ⟨_, _, step⟩
    · exact absurd same (unknown e here)
    · rw [step]
      exact ih g others
    · rw [step]
      exact ih { g with staticOwners := g.staticOwners ++ [s] } others

/- Repeated owners and aliases are no obstacle. -/
theorem buildSucceeds {classes : List ClassEntry} (aliases : List (String × TypeRef)) {owners : List Symbol}
    (isClass : ∀ e ∈ classes, e.symbol.isClass = true) (names : (classes.map (·.symbol.qualifiedName)).Nodup)
    (known : ∀ s ∈ owners, ∃ e ∈ classes, e.symbol = s) : ∃ g, build classes aliases owners = .ok g := by
  rw [build, addClasses classes empty isClass (by simpa [empty] using names)]
  exact ownersAdd owners _ (by simpa [empty] using known)

theorem buildFirst {classes : List ClassEntry} {aliases : List (String × TypeRef)} {owners : List Symbol} {g : Graph}
    (done : build classes aliases owners = .ok g) :
    g.aliases = aliases.foldl (fun table a => bindKey a.1 a.2 table) [] ∧ g.staticOwners = owners.eraseDups := by
  unfold build at done
  obtain ⟨h, added, done⟩ := bindOk done
  obtain ⟨rfl, _⟩ := classesAdded added (by simp [empty])
  obtain ⟨_, table, first, _⟩ := ownersAdded done [] rfl (by simp)
  exact ⟨table, first⟩

theorem buildParts {classes : List ClassEntry} {aliases : List (String × TypeRef)} {owners : List Symbol} {g : Graph}
    (done : build classes aliases owners = .ok g) :
    g.aliases = aliases.foldl (fun table a => bindKey a.1 a.2 table) [] ∧ ∀ s, s ∈ g.staticOwners ↔ s ∈ owners :=
  ⟨(buildFirst done).1, fun s => by rw [(buildFirst done).2, List.mem_eraseDups]⟩

end Graph
end SharedState
