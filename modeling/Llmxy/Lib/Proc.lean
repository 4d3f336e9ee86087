import Llmxy.Lib.Machine

/-!
# Programs that issue commands

A `Proc Cmd Reply α` is a program that issues commands to servers it does not
control and continues with their replies; it ends with an `α`.  The program is a
tree of its own possible commands, so one text of a program has two readings:

* `Proc.runWith exec` issues every command at once, with nothing in between;
* `Proc.sched exec` lets many programs take turns, one command at a time.  A
  schedule chooses who moves, and the local state of a party is what is left of
  its program.

The second half is the rely–guarantee rule for the second reading.  A preorder
`R` on the shared state says what anybody may do to it.  `Proc.Sound` says of a
program, in a state, that each command it issues stays within `R` and that its
result meets `Q`, provided everybody else stays within `R` too.

## Main definitions

* `Proc`, `Proc.bind`, `Proc.runWith`.
* `Proc.move`, `Proc.sched` — one command of one program of many.
* `Proc.Obeys`, `Proc.runWith_of_obeys` — which commands a program issues.
* `Proc.sched_of_obeys` — one command of many programs that obey.
* `Proc.Sound`, `Proc.sound_bind`, `Proc.sound_and`, `Proc.sound_move` — rely–guarantee.
-/

namespace Llmxy

/-- A program over the commands `Cmd`, where the command `c` is answered by a
`Reply c`. -/
inductive Proc (Cmd : Type) (Reply : Cmd → Type) (α : Type) where
  /-- The program has ended. -/
  | ret (a : α)
  /-- Issue a command and continue with its reply. -/
  | call (c : Cmd) (k : Reply c → Proc Cmd Reply α)

namespace Proc
variable {Cmd : Type} {Reply : Cmd → Type} {α β σ : Type}

/-- Run one program and continue with its result. -/
def bind : Proc Cmd Reply α → (α → Proc Cmd Reply β) → Proc Cmd Reply β
  | .ret a, f => f a
  | .call c k, f => .call c fun r => (k r).bind f

/-- Issue one command. -/
def cmd (c : Cmd) : Proc Cmd Reply (Reply c) := .call c .ret

instance : Monad (Proc Cmd Reply) where
  pure := .ret
  bind := Proc.bind

@[simp] theorem pure_eq_ret (a : α) : (pure a : Proc Cmd Reply α) = .ret a := rfl

@[simp] theorem ret_bind (a : α) (f : α → Proc Cmd Reply β) : (Proc.ret a >>= f) = f a := rfl

@[simp] theorem call_bind (c : Cmd) (k : Reply c → Proc Cmd Reply α)
    (f : α → Proc Cmd Reply β) : (Proc.call c k >>= f) = .call c fun r => k r >>= f := rfl

@[simp] theorem cmd_bind (c : Cmd) (f : Reply c → Proc Cmd Reply β) :
    (cmd c >>= f) = .call c f := rfl

/-- Issue every command in turn, with nothing in between. -/
def runWith (exec : (c : Cmd) → σ → Reply c × σ) : Proc Cmd Reply α → σ → α × σ
  | .ret a, s => (a, s)
  | .call c k, s => (k (exec c s).1).runWith exec (exec c s).2

variable {exec : (c : Cmd) → σ → Reply c × σ}

@[simp] theorem runWith_ret (a : α) (s : σ) :
    (Proc.ret a : Proc Cmd Reply α).runWith exec s = (a, s) := rfl

@[simp] theorem runWith_call (c : Cmd) (k : Reply c → Proc Cmd Reply α) (s : σ) :
    (Proc.call c k).runWith exec s = (k (exec c s).1).runWith exec (exec c s).2 := rfl

theorem bind_bind {γ : Type} (p : Proc Cmd Reply α) (f : α → Proc Cmd Reply β)
    (g : β → Proc Cmd Reply γ) : (p >>= f) >>= g = p >>= fun a => f a >>= g := by
  induction p with
  | ret a => rfl
  | call c k ih => exact congrArg (Proc.call c) (funext ih)

theorem runWith_bind (p : Proc Cmd Reply α) (f : α → Proc Cmd Reply β) (s : σ) :
    (p >>= f).runWith exec s = (f (p.runWith exec s).1).runWith exec (p.runWith exec s).2 := by
  induction p generalizing s with
  | ret a => rfl
  | call c k ih => exact ih (exec c s).1 (exec c s).2

/-- The command a program issues next. -/
def next? : Proc Cmd Reply α → Option Cmd
  | .ret _ => none
  | .call c _ => some c

/-- The result of a program that has ended. -/
def result? : Proc Cmd Reply α → Option α
  | .ret a => some a
  | .call _ _ => none

theorem eq_ret_of_result? {p : Proc Cmd Reply α} {a : α} (h : p.result? = some a) :
    p = .ret a := by
  cases p with
  | ret b => exact congrArg Proc.ret (Option.some.inj h)
  | call c k => cases h

/-- One command of a program.  An ended program has none. -/
def move (exec : (c : Cmd) → σ → Reply c × σ) (s : σ) :
    Proc Cmd Reply α → Option (σ × Proc Cmd Reply α)
  | .ret _ => none
  | .call c k => some ((exec c s).2, k (exec c s).1)

/-- One command of one program of many. -/
def sched {ι : Type} [DecidableEq ι] (exec : (c : Cmd) → σ → Reply c × σ) :
    Net ι σ (Proc Cmd Reply α) → ι → Option (Net ι σ (Proc Cmd Reply α)) :=
  Net.step fun _ s p => p.move exec s

theorem move_eq_some {s t : σ} {p q : Proc Cmd Reply α} :
    p.move exec s = some (t, q) ↔
      ∃ c k, p = .call c k ∧ t = (exec c s).2 ∧ q = k (exec c s).1 := by
  cases p with
  | ret a => simp [move]
  | call c k =>
      simp only [move, Option.some.injEq, Prod.mk.injEq]
      constructor
      · rintro ⟨rfl, rfl⟩; exact ⟨c, k, rfl, rfl, rfl⟩
      · rintro ⟨c', k', h, rfl, rfl⟩; cases h; exact ⟨rfl, rfl⟩

/-- What a program may answer and issue as long as its commands are answered by
`A`. -/
def Obeys (A : (c : Cmd) → Reply c → Prop) (C : Cmd → Prop) : Proc Cmd Reply α → Prop
  | .ret _ => True
  | .call c k => C c ∧ ∀ r, A c r → (k r).Obeys A C

section
variable {A : (c : Cmd) → Reply c → Prop} {C : Cmd → Prop}

@[simp] theorem obeys_ret (a : α) : (Proc.ret a : Proc Cmd Reply α).Obeys A C := trivial

theorem obeys_bind {p : Proc Cmd Reply α} {f : α → Proc Cmd Reply β} (hp : p.Obeys A C)
    (hf : ∀ a, (f a).Obeys A C) : (p >>= f).Obeys A C := by
  induction p with
  | ret a => exact hf a
  | call c k ih => exact ⟨hp.1, fun r hr => ih r (hp.2 r hr)⟩

/-- One command of a program that obeys. -/
theorem move_of_obeys {p q : Proc Cmd Reply α} {s t : σ} (hp : p.Obeys A C)
    (hreply : ∀ c, C c → A c (exec c s).1) (hmove : p.move exec s = some (t, q)) :
    (∃ c, C c ∧ t = (exec c s).2) ∧ q.Obeys A C := by
  obtain ⟨c, k, rfl, rfl, rfl⟩ := move_eq_some.mp hmove
  exact ⟨⟨c, hp.1, rfl⟩, hp.2 _ (hreply c hp.1)⟩

/-- **One command of many programs** that all obey. -/
theorem sched_of_obeys {ι : Type} [DecidableEq ι] {s t : Net ι σ (Proc Cmd Reply α)} {i : ι}
    (h : ∀ j, (s.loc j).Obeys A C) (hreply : ∀ c, C c → A c (exec c s.shared).1)
    (hstep : sched exec s i = some t) :
    (∃ c, C c ∧ t.shared = (exec c s.shared).2) ∧ ∀ j, (t.loc j).Obeys A C := by
  obtain ⟨sh, l, hm, rfl⟩ := Net.step_eq_some.mp hstep
  obtain ⟨hcmd, hl⟩ := move_of_obeys (h i) hreply hm
  refine ⟨hcmd, fun j => ?_⟩
  by_cases hj : j = i
  · subst hj
    simpa using hl
  · simpa [Function.update_of_ne hj] using h j

/-- Run alone, a program keeps what each command in `C` keeps, where `A` describes the
replies in the states of `I`. -/
theorem runWith_of_obeys {I : σ → Prop}
    (hcmd : ∀ c s, C c → I s → I (exec c s).2 ∧ A c (exec c s).1) {p : Proc Cmd Reply α} :
    ∀ {s : σ}, p.Obeys A C → I s → I (p.runWith exec s).2 := by
  induction p with
  | ret a => intro s _ hs; exact hs
  | call c k ih =>
      intro s hp hs
      obtain ⟨hstep, hreply⟩ := hcmd c s hp.1 hs
      exact ih _ (hp.2 _ hreply) hstep

end

section Sound
variable {R : σ → σ → Prop} {Ok : σ → Cmd → Prop} {Q Q' : α → Prop}

/-- Started in `s`, with everybody else staying within `R`, the program stays
within `R` and ends with a result in `Q`.  Only its runs count in which each command
is `Ok` in the state it meets. -/
def Sound (exec : (c : Cmd) → σ → Reply c × σ) (R : σ → σ → Prop) (Ok : σ → Cmd → Prop)
    (Q : α → Prop) : Proc Cmd Reply α → σ → Prop
  | .ret a, _ => Q a
  | .call c k, s => ∀ s', R s s' → Ok s' c →
      R s' (exec c s').2 ∧ (k (exec c s').1).Sound exec R Ok Q (exec c s').2

/-- The rule for two programs in a row: the second is sound wherever the first
may leave off. -/
theorem sound_bind (hrefl : ∀ s, R s s) (htrans : ∀ s t u, R s t → R t u → R s u)
    {p : Proc Cmd Reply α} {Q' : β → Prop} {f : α → Proc Cmd Reply β} :
    ∀ {s : σ}, p.Sound exec R Ok Q s →
      (∀ a t, R s t → Q a → (f a).Sound exec R Ok Q' t) → (p >>= f).Sound exec R Ok Q' s := by
  induction p with
  | ret a => intro s hp hf; exact hf a s (hrefl s) hp
  | call c k ih =>
      intro s hp hf s' hR hok
      obtain ⟨hstep, hk⟩ := hp s' hR hok
      refine ⟨hstep, ih _ hk fun a t ht => hf a t ?_⟩
      exact htrans s s' t hR (htrans s' _ t hstep ht)

/-- Other parties may move first. -/
theorem sound_rely (htrans : ∀ s t u, R s t → R t u → R s u) {p : Proc Cmd Reply α} {s t : σ}
    (h : p.Sound exec R Ok Q s) (hR : R s t) : p.Sound exec R Ok Q t := by
  cases p with
  | ret a => exact h
  | call c k => exact fun s' hR' hok => h s' (htrans s t s' hR hR') hok

/-- A program that is sound in two ways is sound in both at once. -/
theorem sound_and {R' : σ → σ → Prop} {p : Proc Cmd Reply α} :
    ∀ {s : σ}, p.Sound exec R Ok Q s → p.Sound exec R' Ok Q' s →
      p.Sound exec (fun s t => R s t ∧ R' s t) Ok (fun a => Q a ∧ Q' a) s := by
  induction p with
  | ret a => intro s h h'; exact ⟨h, h'⟩
  | call c k ih =>
      intro s h h' s' hR hok
      obtain ⟨hstep, hk⟩ := h s' hR.1 hok
      obtain ⟨hstep', hk'⟩ := h' s' hR.2 hok
      exact ⟨⟨hstep, hstep'⟩, ih _ hk hk'⟩

/-- **One command** of a sound program. -/
theorem sound_move (hrefl : ∀ s, R s s) {p q : Proc Cmd Reply α} {s t : σ}
    (h : p.Sound exec R Ok Q s) (hok : ∀ c, p.next? = some c → Ok s c)
    (hmove : p.move exec s = some (t, q)) : R s t ∧ q.Sound exec R Ok Q t := by
  obtain ⟨c, k, rfl, rfl, rfl⟩ := move_eq_some.mp hmove
  exact h s (hrefl s) (hok c rfl)

end Sound
end Proc
end Llmxy
