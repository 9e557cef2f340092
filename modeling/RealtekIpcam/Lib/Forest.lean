import Mathlib.Data.List.Basic

/-!
# Ordered forests and their document order

A forest is a row of trees, here with the first child and the next sibling of each node, so that it
is a plain binary datatype.  A walk of steps down and to the right leads to a node, and every node
is reached by exactly one walk.

The document order of a forest lists each node before its children, and these before what follows to
the right.  The place of a node in it is its `offset`; the nodes below a node are the ones that come
right behind it, as many as there are in the forest of its children (`below_iff`).
-/

/-- A row of trees. -/
inductive Forest (α : Type*) where
  | nil
  | cons (a : α) (children siblings : Forest α)

namespace Forest

variable {α : Type*}

/-- A step of a walk. -/
inductive Step where
  | down | next
  deriving DecidableEq

/-- The nodes in document order. -/
def preorder : Forest α → List α
  | nil => []
  | cons a c s => a :: (c.preorder ++ s.preorder)

/-- The number of nodes. -/
def size (f : Forest α) : Nat := f.preorder.length

/-- The forest that a walk leads to; its first node is the one the walk stands for. -/
def walk : Forest α → List Step → Forest α
  | f, [] => f
  | nil, _ :: _ => nil
  | cons _ c _, .down :: π => c.walk π
  | cons _ _ s, .next :: π => s.walk π

/-- The place in document order that a walk leads to. -/
def offset : Forest α → List Step → Nat
  | _, [] => 0
  | nil, _ :: _ => 0
  | cons _ c _, .down :: π => 1 + c.offset π
  | cons _ c s, .next :: π => 1 + c.size + s.offset π

/-- The walk leads to the node `a`, whose place is `off`. -/
def At (f : Forest α) (π : List Step) (off : Nat) (a : α) : Prop :=
  (∃ c s, f.walk π = cons a c s) ∧ f.offset π = off

/-- The node `a` at the place `off` is below the one that `π` leads to. -/
def Below (f : Forest α) (π : List Step) (off : Nat) (a : α) : Prop :=
  ∃ ρ, f.At (π ++ .down :: ρ) off a

@[simp] theorem walk_nil (π : List Step) : (nil : Forest α).walk π = nil := by
  cases π <;> rfl

/-! ## Walks one after another -/

theorem walk_append (f : Forest α) (π ρ : List Step) : f.walk (π ++ ρ) = (f.walk π).walk ρ := by
  induction π generalizing f with
  | nil => cases f <;> rfl
  | cons p π ih =>
    cases f with
    | nil => simp
    | cons a c s => cases p <;> exact ih _

theorem offset_append {f : Forest α} {π : List Step} (h : f.walk π ≠ nil) (ρ : List Step) :
    f.offset (π ++ ρ) = f.offset π + (f.walk π).offset ρ := by
  induction π generalizing f with
  | nil => cases f <;> simp [walk, offset]
  | cons p π ih =>
    cases f with
    | nil => exact absurd (walk_nil _) h
    | cons a c s =>
      cases p with
      | down =>
        have hc := ih (f := c) h
        simp only [List.cons_append, offset, walk, hc]
        omega
      | next =>
        have hs := ih (f := s) h
        simp only [List.cons_append, offset, walk, hs]
        omega

/-- **A node is reached by a walk exactly at its place in document order.** -/
theorem exists_at_iff {f : Forest α} {off : Nat} {a : α} :
    (∃ π, f.At π off a) ↔ f.preorder[off]? = some a := by
  induction f generalizing off with
  | nil =>
    refine ⟨fun ⟨π, ⟨c, s, hwalk⟩, _⟩ => ?_, fun h => by simp [preorder] at h⟩
    rw [walk_nil] at hwalk
    cases hwalk
  | cons b c s ihc ihs =>
    constructor
    · rintro ⟨π, hat, rfl⟩
      cases π with
      | nil =>
        obtain ⟨c', s', hwalk⟩ := hat
        cases hwalk
        rfl
      | cons p π =>
        cases p with
        | down =>
          have hget := ihc.mp ⟨π, hat, rfl⟩
          have hlt := (List.getElem?_eq_some_iff.mp hget).1
          simp only [offset, preorder]
          rw [Nat.add_comm, List.getElem?_cons_succ, List.getElem?_append_left hlt, hget]
        | next =>
          have hget := ihs.mp ⟨π, hat, rfl⟩
          simp only [offset, preorder]
          rw [Nat.add_assoc, Nat.add_comm, List.getElem?_cons_succ, size,
            List.getElem?_append_right (Nat.le_add_right _ _), Nat.add_sub_cancel_left, hget]
    · intro hget
      cases off with
      | zero =>
        rw [preorder, List.getElem?_cons_zero, Option.some_inj] at hget
        subst hget
        exact ⟨[], ⟨c, s, rfl⟩, rfl⟩
      | succ off =>
        rw [preorder, List.getElem?_cons_succ] at hget
        by_cases hlt : off < c.preorder.length
        · rw [List.getElem?_append_left hlt] at hget
          obtain ⟨π, hat, hoff⟩ := ihc.mpr hget
          refine ⟨.down :: π, hat, ?_⟩
          simp only [offset]
          omega
        · rw [List.getElem?_append_right (by omega)] at hget
          obtain ⟨π, hat, hoff⟩ := ihs.mpr hget
          refine ⟨.next :: π, hat, ?_⟩
          simp only [offset, size]
          omega

/-- **The nodes below a node come right behind it.** -/
theorem below_iff {f c s : Forest α} {a b : α} {π : List Step} (h : f.walk π = cons a c s)
    {off : Nat} :
    f.Below π off b ↔
      (f.offset π < off ∧ off ≤ f.offset π + c.size) ∧ f.preorder[off]? = some b := by
  have hne : f.walk π ≠ nil := by simp [h]
  have hoffset : ∀ ρ, f.offset (π ++ .down :: ρ) = f.offset π + (1 + c.offset ρ) := fun ρ => by
    rw [offset_append hne, h]
    rfl
  have hwalk : ∀ ρ, f.walk (π ++ .down :: ρ) = c.walk ρ := fun ρ => by
    rw [walk_append, h]
    rfl
  constructor
  · rintro ⟨ρ, hat, hoff⟩
    have hget := exists_at_iff.mp ⟨_, hat, hoff⟩
    rw [hwalk] at hat
    rw [hoffset] at hoff
    have hlt := (List.getElem?_eq_some_iff.mp (exists_at_iff.mp ⟨ρ, hat, rfl⟩)).1
    simp only [size]
    exact ⟨by omega, hget⟩
  · rintro ⟨⟨hlt, hle⟩, hget⟩
    have hplace : off - f.offset π - 1 < c.preorder.length := by
      simp only [size] at hle
      omega
    obtain ⟨ρ, hat, hoff⟩ := exists_at_iff.mpr (List.getElem?_eq_getElem hplace)
    have hbelow : f.offset (π ++ .down :: ρ) = off := by
      rw [hoffset]
      omega
    obtain ⟨c', s', hw⟩ := hat
    rw [← hwalk] at hw
    have hsame := exists_at_iff.mp ⟨_, ⟨c', s', hw⟩, hbelow⟩
    rw [hget, Option.some_inj] at hsame
    exact ⟨ρ, ⟨c', s', hsame ▸ hw⟩, hbelow⟩

end Forest
