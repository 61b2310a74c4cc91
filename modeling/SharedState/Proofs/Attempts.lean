import Mathlib.Data.List.Forall2
import Mathlib.Data.List.Perm.Basic

/-! Computations that can fail, one after the other and along a list. -/
namespace SharedState

/-! Two lists that are related place by place. -/

theorem relatedRight {α β : Type} {r : α → β → Prop} {xs : List α} {ys : List β} (related : List.Forall₂ r xs ys) :
    ∀ y ∈ ys, ∃ x ∈ xs, r x y := by
  induction related with
  | nil => simp
  | cons head tail ih =>
    intro y member
    rcases List.mem_cons.1 member with rfl | member
    · exact ⟨_, by simp, head⟩
    · obtain ⟨x, found, same⟩ := ih y member
      exact ⟨x, by simp [found], same⟩

theorem relatedAt {α β : Type} {r : α → β → Prop} {xs : List α} {ys : List β} (related : List.Forall₂ r xs ys) {i : Nat}
    {y : β} (here : ys[i]? = some y) : ∃ x, xs[i]? = some x ∧ r x y := by
  induction related generalizing i with
  | nil => simp at here
  | @cons a b as bs head tail ih =>
    cases i with
    | zero =>
      cases (show b = y by simpa using here)
      exact ⟨a, by simp, head⟩
    | succ i =>
      obtain ⟨x, found, same⟩ := ih (by simpa using here)
      exact ⟨x, by simpa using found, same⟩

theorem relatedMap {α β γ : Type} {r : α → β → Prop} {f : α → γ} {g : β → γ} {xs : List α} {ys : List β}
    (related : List.Forall₂ r xs ys) (agree : ∀ x ∈ xs, ∀ y, r x y → f x = g y) : xs.map f = ys.map g := by
  induction related with
  | nil => rfl
  | cons head tail ih =>
    rw [List.map_cons, List.map_cons, agree _ (by simp) _ head, ih fun x member => agree x (by simp [member])]

theorem relatedImp {α β : Type} {r s : α → β → Prop} {xs : List α} {ys : List β} (related : List.Forall₂ r xs ys)
    (implies : ∀ x ∈ xs, ∀ y, r x y → s x y) : List.Forall₂ s xs ys := by
  induction related with
  | nil => exact .nil
  | cons head tail ih => exact .cons (implies _ (by simp) _ head) (ih fun x inside => implies x (by simp [inside]))

/-! Attempts. -/

theorem bindOk {ε α β : Type} {x : Except ε α} {f : α → Except ε β} {b : β} (done : (x >>= f) = .ok b) :
    ∃ a, x = .ok a ∧ f a = .ok b := by
  cases x with
  | error e => cases done
  | ok a => exact ⟨a, rfl, done⟩

theorem bindIff {ε α β : Type} {x : Except ε α} {f : α → Except ε β} {b : β} :
    (x >>= f) = .ok b ↔ ∃ a, x = .ok a ∧ f a = .ok b := by
  constructor
  · exact bindOk
  · rintro ⟨a, rfl, done⟩
    exact done

theorem failsToo {ε δ α β : Type} {x : Except ε α} {y : Except δ β} (next : ∀ a, x = .ok a → ∃ b, y = .ok b)
    (fails : ∃ e, y = .error e) : ∃ e, x = .error e := by
  cases x with
  | error e => exact ⟨e, rfl⟩
  | ok a =>
    obtain ⟨b, done⟩ := next a rfl
    obtain ⟨e, failed⟩ := fails
    rw [failed] at done
    cases done

theorem mapMOk {ε α β : Type} {f : α → Except ε β} {g : α → β} {xs : List α} (each : ∀ x ∈ xs, f x = .ok (g x)) :
    xs.mapM f = .ok (xs.map g) := by
  induction xs with
  | nil => rfl
  | cons x xs ih =>
    rw [List.mapM_cons, each x (by simp), ih fun y member => each y (by simp [member])]
    rfl

theorem mapMEach {ε α β : Type} {f : α → Except ε β} {xs : List α} {ys : List β} (done : xs.mapM f = .ok ys) :
    List.Forall₂ (fun x y => f x = .ok y) xs ys := by
  induction xs generalizing ys with
  | nil =>
    cases Except.ok.inj done
    exact .nil
  | cons x xs ih =>
    rw [List.mapM_cons] at done
    obtain ⟨y, first, done⟩ := bindOk done
    obtain ⟨zs, later, done⟩ := bindOk done
    cases Except.ok.inj done
    exact .cons first (ih later)

theorem mapMDone {ε α β : Type} {f : α → Except ε β} {xs : List α} {ys : List β} (done : xs.mapM f = .ok ys) :
    ∀ x ∈ xs, ∃ y, f x = .ok y := by
  intro x member
  obtain ⟨y, _, made⟩ := relatedRight (mapMEach done).flip x member
  exact ⟨y, made⟩

theorem mapMIff {ε α β : Type} {f : α → Except ε β} {good : α → Prop} {g : α → β} {xs : List α} {ys : List β}
    (each : ∀ x y, f x = .ok y ↔ good x ∧ y = g x) : xs.mapM f = .ok ys ↔ (∀ x ∈ xs, good x) ∧ ys = xs.map g := by
  constructor
  · intro done
    have values : ys.map id = xs.map g := relatedMap (mapMEach done).flip fun y _ x made => ((each x y).1 made).2
    refine ⟨fun x member => ?_, by simpa using values⟩
    obtain ⟨y, made⟩ := mapMDone done x member
    exact ((each x y).1 made).1
  · rintro ⟨all, rfl⟩
    exact mapMOk fun x member => (each x (g x)).2 ⟨all x member, rfl⟩

theorem mapMFlatten {ε α β : Type} {f : α → Except ε (List β)} {xs : List α} {yss : List (List β)} (done : xs.mapM f = .ok yss)
    (y : β) : y ∈ yss.flatten ↔ ∃ x ∈ xs, ∃ ys, f x = .ok ys ∧ y ∈ ys := by
  rw [List.mem_flatten]
  constructor
  · rintro ⟨ys, part, inside⟩
    obtain ⟨x, member, made⟩ := relatedRight (mapMEach done) ys part
    exact ⟨x, member, ys, made, inside⟩
  · rintro ⟨x, member, ys, made, inside⟩
    obtain ⟨zs, part, made'⟩ := relatedRight (mapMEach done).flip x member
    cases Except.ok.inj (made.symm.trans made')
    exact ⟨ys, part, inside⟩

theorem mapMAll {ε α β : Type} {f : α → Except ε β} {xs : List α} (each : ∀ x ∈ xs, ∃ y, f x = .ok y) :
    ∃ ys, xs.mapM f = .ok ys := by
  induction xs with
  | nil => exact ⟨[], rfl⟩
  | cons x xs ih =>
    obtain ⟨y, first⟩ := each x (by simp)
    obtain ⟨ys, rest⟩ := ih fun z member => each z (by simp [member])
    refine ⟨y :: ys, ?_⟩
    rw [List.mapM_cons, first, rest]
    rfl

/-! Two computations that give the same up to `u`, and fail alike. -/

theorem bindAgrees {ε α β γ δ : Type} {x x' : Except ε α} {u : α → γ} {f f' : α → Except ε β} {v : β → δ}
    (same : x.map u = x'.map u) (next : ∀ a a', u a = u a' → (f a).map v = (f' a').map v) :
    (x >>= f).map v = (x' >>= f').map v := by
  cases x with
  | error e =>
    cases x' with
    | error e' => cases Except.error.inj same; rfl
    | ok a' => cases same
  | ok a =>
    cases x' with
    | error e' => cases same
    | ok a' => exact next a a' (Except.ok.inj same)

theorem mapMAgrees {ε α β γ : Type} {f h : α → Except ε β} (u : β → γ) {xs : List α}
    (same : ∀ x ∈ xs, (f x).map u = (h x).map u) : (xs.mapM f).map (List.map u) = (xs.mapM h).map (List.map u) := by
  induction xs with
  | nil => rfl
  | cons x xs ih =>
    rw [List.mapM_cons, List.mapM_cons]
    refine bindAgrees (same x (by simp)) fun y z first => ?_
    refine bindAgrees (ih fun y member => same y (by simp [member])) fun ys zs rest => ?_
    exact congrArg Except.ok (by rw [List.map_cons, List.map_cons, first, rest])

/- Two lists with the same keys in another order, from which two computations get what the keys determine. -/
theorem mapMKeyed {ε α β γ κ : Type} {key key' : α → κ} {f f' : α → Except ε β} {u : β → γ} {value : κ → Except ε γ}
    {xs xs' : List α} {ys : List β} (order : (xs.map key).Perm (xs'.map key'))
    (first : ∀ x ∈ xs, (f x).map u = value (key x)) (second : ∀ x ∈ xs', (f' x).map u = value (key' x))
    (done : xs.mapM f = .ok ys) : ∃ ys', xs'.mapM f' = .ok ys' ∧ (ys.map u).Perm (ys'.map u) := by
  have each : ∀ x' ∈ xs', ∃ y, f' x' = .ok y := by
    intro x' member
    obtain ⟨x, known, same⟩ := List.mem_map.1 (order.mem_iff.2 (List.mem_map_of_mem member))
    obtain ⟨y, made⟩ := mapMDone done x known
    have agree := second x' member
    rw [← same, ← first x known, made] at agree
    cases result : f' x' with
    | error e => rw [result] at agree; cases agree
    | ok z => exact ⟨z, rfl⟩
  obtain ⟨ys', done'⟩ := mapMAll each
  have values : (xs.map key).map value = (ys.map u).map .ok := by
    rw [List.map_map, List.map_map]
    exact relatedMap (mapMEach done) fun x member y made => (first x member).symm.trans (by rw [made]; rfl)
  have values' : (xs'.map key').map value = (ys'.map u).map .ok := by
    rw [List.map_map, List.map_map]
    exact relatedMap (mapMEach done') fun x member y made => (second x member).symm.trans (by rw [made]; rfl)
  have permuted := order.map value
  rw [values, values'] at permuted
  exact ⟨ys', done', (List.map_perm_map_iff fun _ _ => Except.ok.inj).1 permuted⟩

theorem mapMRearranged {ε α β γ : Type} {f f' : α → Except ε β} (u : β → γ) {xs xs' : List α} {ys : List β}
    (order : xs.Perm xs') (same : ∀ x ∈ xs, (f x).map u = (f' x).map u) (done : xs.mapM f = .ok ys) :
    ∃ ys', xs'.mapM f' = .ok ys' ∧ (ys.map u).Perm (ys'.map u) :=
  mapMKeyed (order.map f') same (fun _ _ => rfl) done

theorem foldlMKept {ε α β : Type} {f : β → α → Except ε β} {kept : β → Prop}
    (step : ∀ b a c, kept b → f b a = .ok c → kept c) {xs : List α} {b c : β} (start : kept b)
    (done : xs.foldlM f b = .ok c) : kept c := by
  induction xs generalizing b with
  | nil =>
    cases Except.ok.inj done
    exact start
  | cons x xs ih =>
    rw [List.foldlM_cons] at done
    obtain ⟨next, first, rest⟩ := bindOk done
    exact ih (step b x next start first) rest

/- A fold whose steps fail whatever has been folded so far. -/
theorem foldlMLater {ε α β γ : Type} {step : γ → α → Except ε γ} {f : α → Except ε β} {g : γ → β → γ}
    (each : ∀ c a, step c a = (f a).map (g c)) (xs : List α) (c : γ) :
    xs.foldlM step c = (xs.mapM f).map fun bs => bs.foldl g c := by
  induction xs generalizing c with
  | nil => rfl
  | cons x xs ih =>
    rw [List.foldlM_cons, List.mapM_cons, each]
    cases f x with
    | error e => rfl
    | ok b =>
      change xs.foldlM step (g c b) = _
      rw [ih]
      cases xs.mapM f with
      | error e => rfl
      | ok bs => rfl

/-! The first failure. -/

def fault? {ε α : Type} : Except ε α → Option ε
  | .error e => some e
  | .ok _ => none

theorem faultSome {ε α : Type} {x : Except ε α} {e : ε} : fault? x = some e ↔ x = .error e := by
  cases x <;> simp [fault?]

theorem faultNone {ε α : Type} {x : Except ε α} : fault? x = none ↔ ∃ a, x = .ok a := by
  cases x <;> simp [fault?]

theorem faultMap {ε α β : Type} (f : α → β) (x : Except ε α) : fault? (x.map f) = fault? x := by
  cases x <;> rfl

theorem faultBind {ε α β : Type} {x : Except ε α} {f : α → Except ε β} {later : Option ε}
    (next : ∀ a, x = .ok a → fault? (f a) = later) : fault? (x >>= f) = (fault? x).or later := by
  cases x with
  | error e => rfl
  | ok a => exact next a rfl

theorem faultFirst {ε α β : Type} {x : Except ε α} {f : α → Except ε β} (done : ∀ a, x = .ok a → ∃ b, f a = .ok b) :
    fault? (x >>= f) = fault? x := by
  rw [faultBind fun a made => faultNone.2 (done a made), Option.or_none]

theorem faultMapM {ε α β : Type} (f : α → Except ε β) (xs : List α) :
    fault? (xs.mapM f) = xs.findSome? fun x => fault? (f x) := by
  induction xs with
  | nil => rfl
  | cons x xs ih =>
    have later (y : β) : fault? (xs.mapM f >>= fun ys => pure (y :: ys)) = xs.findSome? fun x => fault? (f x) :=
      (faultFirst fun ys _ => ⟨y :: ys, rfl⟩).trans ih
    rw [List.mapM_cons, faultBind fun y _ => later y, List.findSome?_cons]
    cases fault? (f x) <;> rfl

theorem foldlMFault {ε α β : Type} {f : β → α → Except ε β} {xs : List α} {b : β} {e : ε} :
    xs.foldlM f b = .error e ↔
      ∃ before x after c, xs = before ++ x :: after ∧ before.foldlM f b = .ok c ∧ f c x = .error e := by
  constructor
  · intro failed
    induction xs generalizing b with
    | nil => cases failed
    | cons x xs ih =>
      rw [List.foldlM_cons] at failed
      cases first : f b x with
      | error e' =>
        rw [first] at failed
        cases failed
        exact ⟨[], x, xs, b, rfl, rfl, first⟩
      | ok c =>
        rw [first] at failed
        obtain ⟨before, y, after, d, split, done, failed⟩ := ih failed
        refine ⟨x :: before, y, after, d, by rw [split]; rfl, ?_, failed⟩
        rw [List.foldlM_cons, first]
        exact done
  · rintro ⟨before, x, after, c, rfl, done, failed⟩
    rw [List.foldlM_append, done]
    change ((x :: after).foldlM f c) = _
    rw [List.foldlM_cons, failed]
    rfl

end SharedState
