import Mathlib.Data.List.Induction
import SharedState.Graph
import SharedState.Proofs.Bindings

/-! What a declared type denotes, and that widening finds exactly that. Aliases may form chains and cycles: a path that
comes back to an alias can be cut short there, so it is enough to follow paths that repeat none. -/
namespace SharedState.Graph

/-- The classes that a type denotes, as the least relation closed under the rules for each form of type. -/
inductive Denotes (g : Graph) : TypeRef → Symbol → Prop where
  | named {name args c} (isClass : g.lookup name = some c) : Denotes g (.mk .named name args) c
  | aliased {name args t c} (noClass : g.lookup name = none) (bound : valueOf? name g.aliases = some t)
      (target : Denotes g t c) : Denotes g (.mk .named name args) c
  | applied {name args c} (base : Denotes g (.named name) c) : Denotes g (.mk .applied name args) c
  | union {name args t c} (member : t ∈ args) (part : Denotes g t c) : Denotes g (.mk .union name args) c
  | intersection {name args t c} (member : t ∈ args) (part : Denotes g t c) :
      Denotes g (.mk .intersection name args) c

/-- A name leads to a class through aliases none of which is in `path`. -/
inductive Leads (g : Graph) (path : List String) : String → Symbol → Prop where
  | here {name c} (isClass : g.lookup name = some c) : Leads g path name c
  | step {name t next c} (noClass : g.lookup name = none) (free : name ∉ path)
      (bound : valueOf? name g.aliases = some t) (head : next ∈ t.heads) (rest : Leads g path next c) :
      Leads g path name c

variable {g : Graph}

theorem memHeadsAll {name : String} {ts : List TypeRef} :
    name ∈ TypeRef.headsAll ts ↔ ∃ t ∈ ts, name ∈ t.heads := by
  induction ts with
  | nil => simp [TypeRef.headsAll]
  | cons t rest ih => simp [TypeRef.headsAll, ih]

theorem denotesHead {t : TypeRef} {c : Symbol} (h : Denotes g t c) : ∃ name ∈ t.heads, Leads g [] name c := by
  induction h with
  | named isClass => exact ⟨_, by simp [TypeRef.heads], .here isClass⟩
  | aliased noClass bound _ ih =>
    obtain ⟨next, head, rest⟩ := ih
    exact ⟨_, by simp [TypeRef.heads], .step noClass (by simp) bound head rest⟩
  | applied _ ih =>
    obtain ⟨name, head, rest⟩ := ih
    exact ⟨name, by simpa [TypeRef.heads, TypeRef.named] using head, rest⟩
  | union member _ ih =>
    obtain ⟨name, head, rest⟩ := ih
    exact ⟨name, by rw [TypeRef.heads, memHeadsAll]; exact ⟨_, member, head⟩, rest⟩
  | intersection member _ ih =>
    obtain ⟨name, head, rest⟩ := ih
    exact ⟨name, by rw [TypeRef.heads, memHeadsAll]; exact ⟨_, member, head⟩, rest⟩

mutual
theorem headDenotes {name : String} {c : Symbol} (named : Denotes g (.named name) c) :
    (t : TypeRef) → name ∈ t.heads → Denotes g t c
  | .mk .named n args, head => by
    have same : name = n := by simpa [TypeRef.heads] using head
    subst same
    cases named with
    | named isClass => exact .named isClass
    | aliased noClass bound target => exact .aliased noClass bound target
  | .mk .applied n args, head => by
    have same : name = n := by simpa [TypeRef.heads] using head
    subst same
    exact .applied named
  | .mk .union n args, head => by
    obtain ⟨t, member, part⟩ := headsDenote named args (by simpa [TypeRef.heads] using head)
    exact .union member part
  | .mk .intersection n args, head => by
    obtain ⟨t, member, part⟩ := headsDenote named args (by simpa [TypeRef.heads] using head)
    exact .intersection member part
  | .mk .array n args, head => by simp [TypeRef.heads] at head
theorem headsDenote {name : String} {c : Symbol} (named : Denotes g (.named name) c) :
    (ts : List TypeRef) → name ∈ TypeRef.headsAll ts → ∃ t ∈ ts, Denotes g t c
  | [], head => by simp [TypeRef.headsAll] at head
  | t :: rest, head => by
    rw [TypeRef.headsAll, List.mem_append] at head
    rcases head with first | later
    · exact ⟨t, by simp, headDenotes named t first⟩
    · obtain ⟨u, member, part⟩ := headsDenote named rest later
      exact ⟨u, by simp [member], part⟩
end

/- A way that comes back to an alias holds a shorter one: either it avoids the alias altogether, or what follows its last
visit does. -/
theorem leadsAvoiding {path : List String} {start : String} {c : Symbol} (h : Leads g path start c) (name : String) :
    Leads g (name :: path) start c ∨
      ∃ t next, g.lookup name = none ∧ valueOf? name g.aliases = some t ∧ next ∈ t.heads ∧
        Leads g (name :: path) next c := by
  induction h with
  | here isClass => exact .inl (.here isClass)
  | @step m t next _ noClass free bound head _ ih =>
    rcases ih with avoids | later
    · by_cases same : m = name
      · subst same
        exact .inr ⟨t, next, noClass, bound, head, avoids⟩
      · exact .inl (.step noClass (by simp [same, free]) bound head avoids)
    · exact .inr later

/-- The aliases that a path has not expanded yet. -/
def pending (g : Graph) (path : List String) : List String := (g.aliases.map Prod.fst).filter (· ∉ path)

theorem pendingLength (path : List String) : (g.pending path).length ≤ g.aliases.length := by
  simpa [pending] using List.length_filter_le (· ∉ path) (g.aliases.map Prod.fst)

theorem pendingShrinks {path : List String} {name : String} {t : TypeRef} (free : name ∉ path)
    (bound : valueOf? name g.aliases = some t) : (g.pending (name :: path)).length < (g.pending path).length := by
  have key : name ∈ g.pending path := by
    simp only [pending, List.mem_filter, decide_eq_true_eq]
    exact ⟨List.mem_map.mpr ⟨_, valueOfKey bound, rfl⟩, free⟩
  have fewer : g.pending (name :: path) = (g.pending path).filter (· ≠ name) := by
    simp only [pending, List.filter_filter]
    congr 1
    funext other
    simp
  rw [fewer]
  exact List.length_filter_lt_length_iff_exists.mpr ⟨name, key, by simp⟩

theorem expandClass {name : String} {c : Symbol} (h : g.lookup name = some c) (fuel : Nat) (path : List String) :
    g.expand fuel path name = [c] := by
  cases fuel <;> simp [expand, h]

theorem expandSound {fuel : Nat} {path : List String} {name : String} {c : Symbol}
    (found : c ∈ g.expand fuel path name) : Denotes g (.named name) c := by
  induction fuel generalizing path name with
  | zero =>
    cases h : g.lookup name with
    | some s =>
      simp only [expandClass h, List.mem_singleton] at found
      subst found
      exact .named h
    | none => simp [expand, h] at found
  | succ fuel ih =>
    cases h : g.lookup name with
    | some s =>
      simp only [expandClass h, List.mem_singleton] at found
      subst found
      exact .named h
    | none =>
      rw [expand] at found
      simp only [h] at found
      split at found
      · simp at found
      · cases bound : valueOf? name g.aliases with
        | none => simp [bound] at found
        | some t =>
          simp only [bound, List.mem_flatMap] at found
          obtain ⟨next, head, inner⟩ := found
          exact .aliased h bound (headDenotes (ih inner) t head)

theorem expandComplete {fuel : Nat} {path : List String} {name : String} {c : Symbol}
    (enough : (g.pending path).length ≤ fuel) (way : Leads g path name c) : c ∈ g.expand fuel path name := by
  induction fuel generalizing path name with
  | zero =>
    cases way with
    | here isClass => simp [expandClass isClass]
    | step noClass free bound head rest =>
      have shrinks := pendingShrinks free bound
      omega
  | succ fuel ih =>
    cases way with
    | here isClass => simp [expandClass isClass]
    | @step _ t next _ noClass free bound head rest =>
      have shrinks := pendingShrinks free bound
      -- the way is first shortened, so that the rest of it does not come back to this alias
      have shorter : ∃ next ∈ t.heads, Leads g (name :: path) next c := by
        rcases leadsAvoiding rest name with avoids | ⟨u, later, _, again, head', avoids⟩
        · exact ⟨next, head, avoids⟩
        · cases Option.some.inj (again.symm.trans bound)
          exact ⟨later, head', avoids⟩
      obtain ⟨first, firstHead, avoids⟩ := shorter
      rw [expand]
      simp only [noClass, free, if_false, bound, List.mem_flatMap]
      exact ⟨first, firstHead, ih (by omega) avoids⟩

/- A bound that leaves one step for each alias not expanded yet is never reached, so any greater one gives the same. -/
theorem expandStable {fuel other : Nat} {path : List String} {name : String}
    (enough : (g.pending path).length ≤ fuel) (also : (g.pending path).length ≤ other) :
    g.expand fuel path name = g.expand other path name := by
  induction fuel generalizing path name other with
  | zero =>
    cases h : g.lookup name with
    | some s => simp [expandClass h]
    | none =>
      cases other with
      | zero => rfl
      | succ other =>
        by_cases free : name ∈ path
        · simp [expand, h, free]
        · cases bound : valueOf? name g.aliases with
          | none => simp [expand, h, bound]
          | some t =>
            have shrinks := pendingShrinks free bound
            omega
  | succ fuel ih =>
    cases h : g.lookup name with
    | some s => simp [expandClass h]
    | none =>
      by_cases free : name ∈ path
      · cases other <;> simp [expand, h, free]
      · cases bound : valueOf? name g.aliases with
        | none => cases other <;> simp [expand, h, bound]
        | some t =>
          have shrinks := pendingShrinks free bound
          cases other with
          | zero => omega
          | succ other =>
            have same : g.expand fuel (name :: path) = g.expand other (name :: path) :=
              funext fun _ => ih (by omega) (by omega)
            simp [expand, h, free, bound, same]

theorem eraseDupsNodup {α : Type} [BEq α] [LawfulBEq α] (xs : List α) : xs.eraseDups.Nodup := by
  induction h : xs.length using Nat.strongRecOn generalizing xs with
  | ind n ih =>
    cases xs with
    | nil => simp
    | cons x rest =>
      rw [List.eraseDups_cons, List.nodup_cons]
      refine ⟨by simp [List.mem_eraseDups], ih _ ?_ _ rfl⟩
      have shorter := List.length_filter_le (fun b => !b == x) rest
      simp only [List.length_cons] at h
      omega

theorem eraseDupsLast {α : Type} [BEq α] [LawfulBEq α] (xs : List α) (x : α) :
    (xs ++ [x]).eraseDups = if x ∈ xs then xs.eraseDups else xs.eraseDups ++ [x] := by
  rw [List.eraseDups_append]
  by_cases known : x ∈ xs <;> simp [known, List.removeAll, List.eraseDups_cons]

theorem eraseDupsMap {α β : Type} [BEq α] [LawfulBEq α] [BEq β] [LawfulBEq β] {f : α → β} {xs : List α}
    (apart : ∀ a ∈ xs, ∀ b ∈ xs, f a = f b → a = b) : (xs.map f).eraseDups = xs.eraseDups.map f := by
  induction xs using List.reverseRecOn with
  | nil => rfl
  | append_singleton xs x ih =>
    have known : f x ∈ xs.map f ↔ x ∈ xs := by
      constructor
      · intro listed
        obtain ⟨y, inside, same⟩ := List.mem_map.1 listed
        exact apart y (by simp [inside]) x (by simp) same ▸ inside
      · exact List.mem_map_of_mem
    have front := ih fun a first b second => apart a (by simp [first]) b (by simp [second])
    rw [List.map_append, List.map_singleton, eraseDupsLast, eraseDupsLast, front]
    by_cases old : x ∈ xs
    · rw [if_pos (known.2 old), if_pos old]
    · rw [if_neg (mt known.1 old), if_neg old, List.map_append, List.map_singleton]

theorem memClassSymbols {t : TypeRef} {c : Symbol} : c ∈ g.classSymbols t ↔ Denotes g t c := by
  simp only [classSymbols, List.mem_eraseDups, List.mem_flatMap]
  constructor
  · rintro ⟨name, head, found⟩
    exact headDenotes (expandSound found) t head
  · intro denotes
    obtain ⟨name, head, way⟩ := denotesHead denotes
    exact ⟨name, head, expandComplete (pendingLength []) way⟩

theorem denotesClass {t : TypeRef} {c : Symbol} (h : Denotes g t c) : c ∈ g.entries.map (·.symbol) := by
  induction h with
  | named isClass =>
    obtain ⟨e, found, same⟩ := Option.map_eq_some_iff.mp isClass
    exact List.mem_map.mpr ⟨e, List.mem_of_find?_eq_some found, same⟩
  | aliased _ _ _ ih => exact ih
  | applied _ ih => exact ih
  | union _ _ ih => exact ih
  | intersection _ _ ih => exact ih

theorem wideningStable (g : Graph) (t : TypeRef) (extra : Nat) :
    (t.heads.flatMap (g.expand (g.aliases.length + extra) [])).eraseDups = g.classSymbols t := by
  have least := pendingLength (g := g) []
  have same : g.expand (g.aliases.length + extra) [] = g.expand g.aliases.length [] :=
    funext fun _ => expandStable (by omega) least
  rw [classSymbols, same]

/-- Widening ends, whatever the aliases: to allow more expansions than there are aliases makes no difference. It gives
each class that a type denotes once, and no other symbol. -/
theorem wideningExact (g : Graph) (t : TypeRef) :
    (∀ extra, (t.heads.flatMap (g.expand (g.aliases.length + extra) [])).eraseDups = g.classSymbols t) ∧
    (g.classSymbols t).Nodup ∧ ∀ c, c ∈ g.classSymbols t ↔ Denotes g t c :=
  ⟨wideningStable g t, eraseDupsNodup _, fun _ => memClassSymbols⟩

end SharedState.Graph
