import NanoCell.Lib.Transition

/-!
# Programs over device registers

A driver function is the sequence of register accesses it makes, each of which may depend on the
values read before. The device changes its registers on its own between any two accesses: a system
state is what is left of the program together with the state of the device, and an event is the next
access or a move of the device. A triple holds for every interleaving of the two; its assertions
have to be stable under the moves of the device.

## Main definitions

* `Prog`, `Prog.bind`, `Prog.poll`: programs, sequencing, and the bounded polling of a register
* `Device`, `step`: a device, and the system of a program and a device
* `exec`: the run of a program on a device that makes no move
* `Triple d I P p Q`: from `P`, in every interleaving, `I` holds throughout and `Q` on return

## Main results

* `Triple.ret`, `Triple.read`, `Triple.write`, `Triple.bind`, `Triple.conseq`, `Triple.poll`: the
  rules
* `run_exec`, `Triple.exec`: the run without moves is one of them
-/

namespace Mmio

open Transition

/-- A program over the registers `ρ`, the register `r` having values of type `V r`. -/
inductive Prog (ρ : Type) (V : ρ → Type) (α : Type) : Type
  | ret (a : α)
  | read (r : ρ) (k : V r → Prog ρ V α)
  | write (r : ρ) (v : V r) (k : Prog ρ V α)

variable {ρ : Type} {V : ρ → Type} {α β σ ε : Type}

namespace Prog

/-- Sequencing. -/
def bind : Prog ρ V α → (α → Prog ρ V β) → Prog ρ V β
  | ret a, f => f a
  | read r k, f => read r fun v => (k v).bind f
  | write r v k, f => write r v (k.bind f)

instance : Monad (Prog ρ V) where
  pure := ret
  bind := bind

@[simp] theorem ret_bind (a : α) (f : α → Prog ρ V β) : (ret a : Prog ρ V α).bind f = f a := rfl

/-- A read on its own. -/
def get (r : ρ) : Prog ρ V (V r) := read r ret

/-- A write on its own. -/
def put (r : ρ) (v : V r) : Prog ρ V Unit := write r v (ret ())

/-- A loop of at most `n` turns that reads `r` and ends at a value that is accepted. -/
def poll (r : ρ) (done : V r → Bool) : ℕ → Prog ρ V Unit
  | 0 => ret ()
  | n + 1 => read r fun v => if done v then ret () else poll r done n

end Prog

/-- A device: what a read returns and does, what a write does, and the moves it makes on its own. -/
structure Device (σ ε ρ : Type) (V : ρ → Type) where
  read : σ → (r : ρ) → V r × σ
  write : σ → (r : ρ) → V r → σ
  step : σ → ε → Option σ

/-- The next access of the program, or a move of the device. -/
inductive Move (ε : Type) where
  | access
  | device (e : ε)

/-- The system of a program and a device. -/
def step (d : Device σ ε ρ V) : Prog ρ V α × σ → Move ε → Option (Prog ρ V α × σ)
  | (.ret _, _), .access => none
  | (.read r k, s), .access => some (k (d.read s r).1, (d.read s r).2)
  | (.write r v k, s), .access => some (k, d.write s r v)
  | (p, s), .device e => (d.step s e).map fun t => (p, t)

/-- The program on a device that makes no move. -/
def exec (d : Device σ ε ρ V) : Prog ρ V α → σ → α × σ
  | .ret a, s => (a, s)
  | .read r k, s => exec d (k (d.read s r).1) (d.read s r).2
  | .write r v k, s => exec d k (d.write s r v)

/-- What the moves of the device keep. -/
def Stable (d : Device σ ε ρ V) (P : σ → Prop) : Prop := ∀ s e t, P s → d.step s e = some t → P t

/-- From the device state `s`, in every interleaving of `p` with the moves of the device, `I` holds
throughout and `Q` when `p` has returned. -/
def Safe (d : Device σ ε ρ V) (I : σ → Prop) (Q : α → σ → Prop) (p : Prog ρ V α) (s : σ) : Prop :=
  ∀ es, Always (step d) (fun x => I x.2 ∧ ∀ a, x.1 = .ret a → Q a x.2) (p, s) es

/-- From every device state in `P` the program is safe. -/
def Triple (d : Device σ ε ρ V) (I P : σ → Prop) (p : Prog ρ V α) (Q : α → σ → Prop) : Prop :=
  ∀ s, P s → Safe d I Q p s

section Rules

variable {d : Device σ ε ρ V} {I P R : σ → Prop} {Q : α → σ → Prop}

/-- What a move of the system is. -/
theorem step_device {p : Prog ρ V α} {s : σ} {e : ε} {x : Prog ρ V α × σ}
    (h : step d (p, s) (.device e) = some x) : ∃ t, d.step s e = some t ∧ x = (p, t) := by
  have h' : (d.step s e).map (fun t => (p, t)) = some x := by
    cases p <;> exact h
  obtain ⟨t, ht, rfl⟩ := Option.map_eq_some_iff.mp h'
  exact ⟨t, ht, rfl⟩

/-- **The rule of one access**: a program at `P`, which is stable, waits there until its next access
takes it to a state from which the rest is safe. -/
theorem Triple.of_access {p : Prog ρ V α} (hstable : Stable d P) (hI : ∀ s, P s → I s)
    (hret : ∀ a s, P s → p = .ret a → Q a s)
    (haccess : ∀ s x, P s → step d (p, s) .access = some x → Safe d I Q x.1 x.2) :
    Triple d I P p Q := by
  intro s hs es
  induction es generalizing s with
  | nil => exact ⟨hI s hs, fun a ha => hret a s hs ha⟩
  | cons e es ih =>
    refine ⟨⟨hI s hs, fun a ha => hret a s hs ha⟩, ?_⟩
    intro x hx
    cases e with
    | access => exact haccess s x hs hx es
    | device e =>
      obtain ⟨t, ht, rfl⟩ := step_device hx
      exact ih t (hstable s e t hs ht)

theorem Triple.ret {a : α} (hstable : Stable d (Q a)) (hI : ∀ s, Q a s → I s) :
    Triple d I (Q a) (.ret a) Q := by
  refine Triple.of_access hstable hI ?_ ?_
  · intro b s hs hb
    cases hb
    exact hs
  · intro s x hs hx
    cases hx

theorem Triple.read {r : ρ} {k : V r → Prog ρ V α} (hstable : Stable d P) (hI : ∀ s, P s → I s)
    (hk : ∀ s, P s → Safe d I Q (k (d.read s r).1) (d.read s r).2) :
    Triple d I P (.read r k) Q := by
  refine Triple.of_access hstable hI (fun a s _ ha => by cases ha) ?_
  intro s x hs hx
  cases hx
  exact hk s hs

theorem Triple.write {r : ρ} {v : V r} {k : Prog ρ V α} (hstable : Stable d P)
    (hI : ∀ s, P s → I s) (hP : ∀ s, P s → R (d.write s r v)) (hk : Triple d I R k Q) :
    Triple d I P (.write r v k) Q := by
  refine Triple.of_access hstable hI (fun a s _ ha => by cases ha) ?_
  intro s x hs hx
  cases hx
  exact hk _ (hP s hs)

theorem Triple.conseq {p : Prog ρ V α} {Q' : α → σ → Prop} (h : Triple d I R p Q')
    (hP : ∀ s, P s → R s) (hQ : ∀ a s, Q' a s → Q a s) : Triple d I P p Q := by
  intro s hs es
  refine (h s (hP s hs) es).mono ?_
  rintro ⟨p, t⟩ ⟨hI, hret⟩
  exact ⟨hI, fun a ha => hQ a t (hret a ha)⟩

/-- A program that has returned is safe to continue. -/
theorem Safe.bind {p : Prog ρ V α} {f : α → Prog ρ V β} {R : α → σ → Prop} {Q : β → σ → Prop}
    {s : σ} (h : Safe d I R p s) (hf : ∀ a, Triple d I (R a) (f a) Q) :
    Safe d I Q (p.bind f) s := by
  intro es
  induction es generalizing p s with
  | nil =>
    cases p with
    | ret a => exact hf a s ((h []).2 a rfl) []
    | read r k => exact ⟨(h []).1, fun b hb => by cases hb⟩
    | write r v k => exact ⟨(h []).1, fun b hb => by cases hb⟩
  | cons e es ih =>
    cases p with
    | ret a => exact hf a s ((h []).2 a rfl) (e :: es)
    | read r k =>
      refine ⟨⟨(h []).1, fun b hb => by cases hb⟩, ?_⟩
      intro x hx
      cases e with
      | access =>
        cases hx
        exact ih fun fs => (h (.access :: fs)).2 _ rfl
      | device e =>
        obtain ⟨t, ht, rfl⟩ := step_device hx
        exact ih (p := .read r k) fun fs =>
          (h (.device e :: fs)).2 (.read r k, t) (by simp [step, ht])
    | write r v k =>
      refine ⟨⟨(h []).1, fun b hb => by cases hb⟩, ?_⟩
      intro x hx
      cases e with
      | access =>
        cases hx
        exact ih fun fs => (h (.access :: fs)).2 _ rfl
      | device e =>
        obtain ⟨t, ht, rfl⟩ := step_device hx
        exact ih (p := .write r v k) fun fs =>
          (h (.device e :: fs)).2 (.write r v k, t) (by simp [step, ht])

/-- **Sequencing.** -/
theorem Triple.bind {p : Prog ρ V α} {f : α → Prog ρ V β} {R : α → σ → Prop} {Q : β → σ → Prop}
    (h : Triple d I P p R) (hf : ∀ a, Triple d I (R a) (f a) Q) : Triple d I P (p.bind f) Q :=
  fun s hs => (h s hs).bind hf

/-- **Polling**: with `n` turns left the device is in `W n`; a value that is accepted leads to the
postcondition, any other value to `W` with one turn less. -/
theorem Triple.poll {r : ρ} {done : V r → Bool} {W : ℕ → σ → Prop} {Q : Unit → σ → Prop}
    (hW : ∀ n, Stable d (W n)) (hQ : Stable d (Q ())) (hWI : ∀ n s, W n s → I s)
    (hQI : ∀ s, Q () s → I s) (hzero : ∀ s, W 0 s → Q () s)
    (hdone : ∀ n s, W (n + 1) s → done (d.read s r).1 = true → Q () (d.read s r).2)
    (hnext : ∀ n s, W (n + 1) s → done (d.read s r).1 = false → W n (d.read s r).2) (n : ℕ) :
    Triple d I (W n) (.poll r done n) Q := by
  have hend : Triple d I (Q ()) (.ret ()) Q := .ret hQ hQI
  induction n with
  | zero => exact hend.conseq hzero fun _ _ h => h
  | succ n ih =>
    refine Triple.read (hW (n + 1)) (hWI (n + 1)) ?_
    intro s hs
    cases hv : done (d.read s r).1 with
    | true => exact hend _ (hdone n s hs hv)
    | false => exact ih _ (hnext n s hs hv)

end Rules

/-- The run without moves of the device is a run of the system. -/
theorem run_exec (d : Device σ ε ρ V) (p : Prog ρ V α) (s : σ) :
    ∃ n, run (step d) (p, s) (List.replicate n .access) =
      some (.ret (exec d p s).1, (exec d p s).2) := by
  induction p generalizing s with
  | ret a => exact ⟨0, rfl⟩
  | read r k ih =>
    obtain ⟨n, hn⟩ := ih (d.read s r).1 (d.read s r).2
    exact ⟨n + 1, hn⟩
  | write r v k ih =>
    obtain ⟨n, hn⟩ := ih (d.write s r v)
    exact ⟨n + 1, hn⟩

theorem Safe.exec {d : Device σ ε ρ V} {I : σ → Prop} {Q : α → σ → Prop} {p : Prog ρ V α} {s : σ}
    (h : Safe d I Q p s) : Q (Mmio.exec d p s).1 (Mmio.exec d p s).2 := by
  obtain ⟨n, hn⟩ := run_exec d p s
  exact ((h (List.replicate n .access)).of_run hn).2 _ rfl

theorem exec_bind (d : Device σ ε ρ V) (p : Prog ρ V α) (f : α → Prog ρ V β) (s : σ) :
    exec d (p.bind f) s = exec d (f (exec d p s).1) (exec d p s).2 := by
  induction p generalizing s with
  | ret a => rfl
  | read r k ih => exact ih _ _
  | write r v k ih => exact ih _

end Mmio
