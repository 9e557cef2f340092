/-!
# Programs under a non-recursive lock

A program here changes a state, takes and releases one lock, and calls out to code it does not
control.  The lock is not recursive: acquiring it while it is held is a self-deadlock, and the
program never goes on.  Calling out is allowed only with the lock free, since the code called may
come back through an entry point that takes it.

`Outcome.Ok k Q` is the judgement of one execution: no self-deadlock, no undefined memory access,
and a normal return leaves the lock in state `k` and satisfies `Q`.  `Safe h k p` is the same for
every start state with the lock in state `h`, and the rules below derive it along the structure of a
program.  `Outcome.Post Q` is the partial judgement, which says nothing of an execution that does
not return, and `Outcome.Returns k Q` the total one.
-/

namespace LockLogic

/-- How an execution ends: a return with the final state and whether the lock is held, a
self-deadlock, an undefined memory access, or a loop that is still running when its fuel is gone. -/
inductive Outcome (σ α : Type) where
  | ret (a : α) (s : σ) (held : Bool)
  | deadlock
  | fault
  | hang

/-- A program: from a state and whether the lock is held to the outcome. -/
def Prog (σ α : Type) := σ → Bool → Outcome σ α

variable {σ α β : Type}

/-- Sequential composition. -/
def Prog.bind (p : Prog σ α) (f : α → Prog σ β) : Prog σ β := fun s h =>
  match p s h with
  | .ret a t k => f a t k
  | .deadlock => .deadlock
  | .fault => .fault
  | .hang => .hang

instance : Monad (Prog σ) where
  pure a := fun s h => .ret a s h
  bind := Prog.bind

/-! ## Operations -/

/-- Read the state. -/
def get : Prog σ σ := fun s h => .ret s s h

/-- Change the state. -/
def modify (f : σ → σ) : Prog σ Unit := fun s h => .ret () (f s) h

def spinLock : Prog σ Unit := fun s h => if h then .deadlock else .ret () s true

/-- Release the lock. -/
def spinUnlock : Prog σ Unit := fun s _ => .ret () s false

/-- Call out to other code, which sees and changes the state. -/
def callback (f : σ → α × σ) : Prog σ α := fun s h =>
  if h then .deadlock else .ret (f s).1 (f s).2 false

/-- An undefined memory access. -/
def fault : Prog σ α := fun _ _ => .fault

/-- Out of fuel. -/
def hang : Prog σ α := fun _ _ => .hang

/-- Run a program for each item of a list, in order. -/
def forList (f : α → Prog σ Unit) : List α → Prog σ Unit
  | [] => pure ()
  | a :: l => do
    f a
    forList f l

/-! ## Execution -/

section Execution

variable (f : σ → Prog σ α) (k : Unit → Prog σ α) (s : σ) (h : Bool)

theorem bind_eq (p : Prog σ β) (q : β → Prog σ α) : (p >>= q) s h = p.bind q s h := rfl

@[simp] theorem pure_apply (a : α) : (pure a : Prog σ α) s h = .ret a s h := rfl

@[simp] theorem get_bind : ((get : Prog σ σ) >>= f) s h = f s s h := rfl

@[simp] theorem modify_bind (g : σ → σ) : (modify g >>= k) s h = k () (g s) h := rfl

@[simp] theorem spinLock_bind : (spinLock >>= k) s false = k () s true := rfl

@[simp] theorem spinUnlock_bind : (spinUnlock >>= k) s h = k () s false := rfl

theorem bind_bind (p : Prog σ β) (q : β → Prog σ α) {γ : Type} (r : α → Prog σ γ) :
    ((p >>= q) >>= r) s h = (p >>= fun a => q a >>= r) s h := by
  rw [bind_eq, bind_eq, Prog.bind, Prog.bind, bind_eq, Prog.bind]
  cases p s h with
  | ret a t held => rfl
  | deadlock => rfl
  | fault => rfl
  | hang => rfl

end Execution

/-! ## The judgement -/

/-- No self-deadlock and no undefined access, and a return leaves the lock in state `k` and
satisfies `Q`. -/
def Outcome.Ok (k : Bool) (Q : α → σ → Prop) : Outcome σ α → Prop
  | .ret a s held => held = k ∧ Q a s
  | .deadlock => False
  | .fault => False
  | .hang => True

/-- From every state with the lock in state `h`, the program runs without self-deadlock and without
undefined access, and if it returns the lock is in state `k`. -/
def Safe (h k : Bool) (p : Prog σ α) : Prop := ∀ s, (p s h).Ok k fun _ _ => True

/-- A return satisfies `Q`, which also sees whether the lock is held. -/
def Outcome.Post (Q : α → σ → Bool → Prop) : Outcome σ α → Prop
  | .ret a s held => Q a s held
  | _ => True

/-- The execution returns, with the lock in state `k`, and satisfies `Q`. -/
def Outcome.Returns (k : Bool) (Q : α → σ → Prop) : Outcome σ α → Prop
  | .ret a s held => held = k ∧ Q a s
  | _ => False

/-- The execution makes no undefined memory access. -/
def Outcome.Defined : Outcome σ α → Prop
  | .fault => False
  | _ => True

/-- The rule of composition, at one execution. -/
theorem ok_bind {k l : Bool} {Q : α → σ → Prop} {R : β → σ → Prop} {p : Prog σ α}
    {f : α → Prog σ β} {s : σ} {h : Bool} (hp : (p s h).Ok k Q)
    (hf : ∀ a t, Q a t → (f a t k).Ok l R) : ((p >>= f) s h).Ok l R := by
  rw [bind_eq, Prog.bind]
  cases hr : p s h with
  | ret a t held =>
    rw [hr] at hp
    obtain ⟨rfl, hQ⟩ := hp
    exact hf a t hQ
  | deadlock =>
    rw [hr] at hp
    exact hp
  | fault =>
    rw [hr] at hp
    exact hp
  | hang => trivial

/-- The rule of composition for the partial judgement. -/
theorem post_bind {Q : α → σ → Bool → Prop} {R : β → σ → Bool → Prop} {p : Prog σ α}
    {f : α → Prog σ β} {s : σ} {h : Bool} (hp : (p s h).Post Q)
    (hf : ∀ a t k, Q a t k → (f a t k).Post R) : ((p >>= f) s h).Post R := by
  rw [bind_eq, Prog.bind]
  cases hr : p s h with
  | ret a t held =>
    rw [hr] at hp
    exact hf a t held hp
  | deadlock => trivial
  | fault => trivial
  | hang => trivial

theorem Outcome.Returns.exists_eq {k : Bool} {Q : α → σ → Prop} {o : Outcome σ α}
    (h : o.Returns k Q) : ∃ a s, o = .ret a s k ∧ Q a s := by
  cases o with
  | ret a s held =>
    obtain ⟨rfl, hQ⟩ := h
    exact ⟨a, s, rfl, hQ⟩
  | deadlock => exact h.elim
  | fault => exact h.elim
  | hang => exact h.elim

theorem Outcome.Returns.mono {k : Bool} {Q R : α → σ → Prop} {o : Outcome σ α}
    (h : o.Returns k Q) (hQR : ∀ a s, Q a s → R a s) : o.Returns k R := by
  obtain ⟨a, s, rfl, hQ⟩ := h.exists_eq
  exact ⟨rfl, hQR a s hQ⟩

/-- The rule of composition for the total judgement. -/
theorem returns_bind {k l : Bool} {Q : α → σ → Prop} {R : β → σ → Prop} {p : Prog σ α}
    {f : α → Prog σ β} {s : σ} {h : Bool} (hp : (p s h).Returns k Q)
    (hf : ∀ a t, Q a t → (f a t k).Returns l R) : ((p >>= f) s h).Returns l R := by
  obtain ⟨a, t, hr, hQ⟩ := hp.exists_eq
  rw [bind_eq, Prog.bind, hr]
  exact hf a t hQ

/-- A self-deadlock of the first part is one of the composition. -/
theorem bind_deadlock {p : Prog σ α} {f : α → Prog σ β} {s : σ} {h : Bool}
    (hp : p s h = .deadlock) : (p >>= f) s h = .deadlock := by
  rw [bind_eq, Prog.bind, hp]

/-- A memory fault of the first part is one of the composition. -/
theorem bind_fault {p : Prog σ α} {f : α → Prog σ β} {s : σ} {h : Bool} (hp : p s h = .fault) :
    (p >>= f) s h = .fault := by
  rw [bind_eq, Prog.bind, hp]

/-- A composition whose first part returns goes on from there. -/
theorem bind_ret {p : Prog σ α} {f : α → Prog σ β} {s t : σ} {a : α} {h k : Bool}
    (hp : p s h = .ret a t k) : (p >>= f) s h = f a t k := by
  rw [bind_eq, Prog.bind, hp]

/-! ## Rules -/

theorem Safe.pure (h : Bool) (a : α) : Safe h h (Pure.pure a : Prog σ α) := fun _ => ⟨rfl, trivial⟩

theorem Safe.bind {h k l : Bool} {p : Prog σ α} {f : α → Prog σ β} (hp : Safe h k p)
    (hf : ∀ a, Safe k l (f a)) : Safe h l (p >>= f) :=
  fun s => ok_bind (hp s) fun a t _ => hf a t

theorem Safe.get (h : Bool) : Safe h h (get : Prog σ σ) := fun _ => ⟨rfl, trivial⟩

theorem Safe.modify (h : Bool) (f : σ → σ) : Safe h h (modify f) := fun _ => ⟨rfl, trivial⟩

theorem Safe.spinLock : Safe false true (spinLock : Prog σ Unit) := fun _ => ⟨rfl, trivial⟩

theorem Safe.spinUnlock (h : Bool) : Safe h false (spinUnlock : Prog σ Unit) :=
  fun _ => ⟨rfl, trivial⟩

theorem Safe.callback (f : σ → α × σ) : Safe false false (callback f) := fun _ => ⟨rfl, trivial⟩

theorem Safe.hang (h k : Bool) : Safe h k (hang : Prog σ α) := fun _ => trivial

theorem Safe.ite {h k : Bool} {c : Prop} [Decidable c] {p q : Prog σ α} (hp : Safe h k p)
    (hq : Safe h k q) : Safe h k (if c then p else q) := by
  split
  · exact hp
  · exact hq

/-- A loop over a list keeps the lock as its body does. -/
theorem Safe.forList {h : Bool} {f : α → Prog σ Unit} (hf : ∀ a, Safe h h (f a)) :
    ∀ l : List α, Safe h h (forList f l)
  | [] => Safe.pure h ()
  | a :: l => Safe.bind (hf a) fun _ => Safe.forList hf l

end LockLogic
