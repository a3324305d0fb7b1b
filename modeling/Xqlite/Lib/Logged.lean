import Mathlib.Data.List.Basic
set_option autoImplicit false

/-! Computations that leave a log of events behind and end in a value, an error or
a crash. An early exit skips what follows it but keeps what was logged. -/

inductive Outcome (ε α : Type) where
  | ok (a : α)
  | error (e : ε)
  | crash
  deriving Repr

structure Logged (τ ε α : Type) where
  log : List τ
  out : Outcome ε α

namespace Logged

variable {τ ε α β : Type}

def ret (a : α) : Logged τ ε α := ⟨[],.ok a⟩

def stop (e : ε) : Logged τ ε α := ⟨[],.error e⟩

def note (events : List τ) : Logged τ ε Unit := ⟨events,.ok ()⟩

def lift (out : Outcome ε α) : Logged τ ε α := ⟨[],out⟩

def andThen (x : Logged τ ε α) (f : α → Logged τ ε β) : Logged τ ε β :=
  match x.out with
  | .ok a => ⟨x.log ++ (f a).log,(f a).out⟩
  | .error e => ⟨x.log,.error e⟩
  | .crash => ⟨x.log,.crash⟩

instance {τ ε : Type} : Monad (Logged τ ε) where
  pure := ret
  bind := andThen

@[simp] theorem pure_eq (a : α) : (pure a : Logged τ ε α) = ⟨[],.ok a⟩ := rfl

theorem bind_eq_of_ok {x : Logged τ ε α} {a : α} (h : x.out = .ok a) (f : α → Logged τ ε β) :
    (x >>= f) = ⟨x.log ++ (f a).log,(f a).out⟩ := by
  simp [bind,andThen,h]

theorem bind_eq_of_error {x : Logged τ ε α} {e : ε} (h : x.out = .error e)
    (f : α → Logged τ ε β) : (x >>= f) = ⟨x.log,.error e⟩ := by
  simp [bind,andThen,h]

@[simp] theorem note_bind (events : List τ) (f : Unit → Logged τ ε β) :
    (note events >>= f) = ⟨events ++ (f ()).log,(f ()).out⟩ := rfl

@[simp] theorem lift_ok_bind (a : α) (f : α → Logged τ ε β) :
    (lift (.ok a) >>= f) = f a := rfl

end Logged
