import Raster.Engine.Chain
import Raster.Engine.Recorded

/-!
# What chains ask of engines

All that a chain learns of a call is its outcome. So a chain is a script: the call to make first,
and for each outcome of it how to go on. An engine of any kind serves the script, and the calls
that it gets are those along one run of the script.

* `Script` — calls, and how to go on after each outcome.
* `Script.serve` — the script served by an engine.
* `Engine.asking` — the engine that leaves all calls to a script.
* `Script.Leads` — a run: the calls with their outcomes, and the result.
* `Script.AgreeFor` — scripts that make the same first calls.

Results: `Engine.execute_eq_serve` (a chain of any engine is its script, served),
`Script.leads_bind` (runs of a script that goes on as another) and `Script.AgreeFor.bind`.
-/

namespace Raster

/-- A program that asks for outcomes of calls. -/
inductive Script (α : Type) where
  | done (result : α)
  | ask (call : Call) (next : Outcome → Script α)

/-- A call with its outcome. -/
structure Exchange where
  call : Call
  answer : Outcome

/-- The engine that leaves all calls to a script. -/
def Engine.asking : Engine Script where
  name := "script"
  call p input output := .ask ⟨p, input, output⟩ .done

namespace Script

variable {α β : Type}

/-- The second script goes on with the result of the first one. -/
def bind : Script α → (α → Script β) → Script β
  | .done a, f => f a
  | .ask call next, f => .ask call fun answer => (next answer).bind f

instance : Monad Script where
  pure := .done
  bind := bind

/-! ## Engines that serve scripts -/

section

variable {m : Type → Type} [Monad m]

/-- The script, with the outcomes that an engine gives. -/
def serve (e : Engine m) : Script α → m α
  | .done a => pure a
  | .ask call next => do
    let answer ← e.call call.primitive call.input call.output
    (next answer).serve e

variable (e : Engine m)

variable [LawfulMonad m]

@[simp] theorem serve_bind (s : Script α) (f : α → Script β) :
    (s >>= f).serve e = s.serve e >>= fun a => (f a).serve e := by
  induction s with
  | done a =>
    show (f a).serve e = pure a >>= fun a => (f a).serve e
    rw [pure_bind]
  | ask call next ih =>
    show (e.call _ _ _ >>= fun answer => (next answer >>= f).serve e) =
      (e.call _ _ _ >>= fun answer => (next answer).serve e) >>= _
    rw [bind_assoc]
    exact bind_congr fun answer => ih answer

@[simp] theorem serve_call (p : Primitive) (input output : Frame) :
    (Engine.asking.call p input output).serve e = e.call p input output := bind_pure _

end

end Script

/-! ## Chains as scripts -/

namespace Engine

variable {m : Type → Type} [Monad m] [LawfulMonad m] (e : Engine m) (input output : Frame)

theorem orient_eq_serve : e.orient input output = (asking.orient input output).serve e := by
  unfold orient
  dsimp only
  split
  · exact (Script.serve_call e _ _ _).symm
  · exact (Script.serve_call e _ _ _).symm
  · exact (Script.serve_call e _ _ _).symm
  · split
    · rfl
    · rw [Script.serve_bind, Script.serve_call]
      refine bind_congr fun rotated => ?_
      split
      · rfl
      · exact (Script.serve_call e _ _ _).symm

theorem cropBox_eq_serve (crop : Box) :
    e.cropBox crop input output = (asking.cropBox crop input output).serve e := by
  unfold cropBox
  split
  · rfl
  · exact (Script.serve_call e _ _ _).symm

theorem cropUniformly_eq_serve (crop : Box) :
    e.cropUniformly crop input output = (asking.cropUniformly crop input output).serve e := by
  unfold cropUniformly
  split
  · rfl
  · rw [Script.serve_bind, ← cropBox_eq_serve]
    rfl

theorem perform_eq_serve (op : Operation) :
    e.perform op input output = (asking.perform op input output).serve e := by
  cases op with
  | cropResize crop size => exact cropBox_eq_serve e input output crop
  | convert format => exact (Script.serve_call e _ _ _).symm
  | orient orientation => exact orient_eq_serve e input output
  | uniformCropResize crop size => exact cropUniformly_eq_serve e input output crop

theorem steps_eq_serve (timestamp : Option Nat) (operations : List Operation) (source : Frame)
    (held spare : Bytes) :
    e.steps timestamp output operations source held spare =
      (asking.steps timestamp output operations source held spare).serve e := by
  induction operations generalizing source held spare with
  | nil => rfl
  | cons op rest ih =>
    cases rest with
    | nil => exact perform_eq_serve e source output op
    | cons next rest =>
      unfold steps
      dsimp only
      split
      · rfl
      · rw [Script.serve_bind, ← perform_eq_serve]
        refine bind_congr fun r => ?_
        split
        · rfl
        · split
          · rfl
          · exact ih _ _ _

/-- A chain of any engine is the script of the chain, served by that engine. -/
theorem execute_eq_serve (operations : List Operation) :
    e.execute operations input output = (asking.execute operations input output).serve e := by
  unfold execute
  dsimp only
  split
  · rfl
  · split
    · rfl
    · exact steps_eq_serve e output _ _ _ _ _

end Engine

/-! ## Runs -/

namespace Script

variable {α β : Type}

/-- A run of a script: the calls it makes with their outcomes, and its result. -/
inductive Leads : Script α → List Exchange → α → Prop
  | done (a : α) : Leads (.done a) [] a
  | ask {call : Call} {next : Outcome → Script α} {answer : Outcome} {log : List Exchange} {a : α}
      (later : Leads (next answer) log a) : Leads (.ask call next) (⟨call, answer⟩ :: log) a

variable {s t : Script α} {f g : α → Script β} {log : List Exchange} {a a' : α} {b : β}

theorem leads_done : (done a).Leads log a' ↔ log = [] ∧ a' = a := by
  constructor
  · rintro ⟨⟩
    exact ⟨rfl, rfl⟩
  · rintro ⟨rfl, rfl⟩
    exact .done _

theorem leads_call {p : Primitive} {input output : Frame} {r : Outcome} :
    (Engine.asking.call p input output).Leads log r ↔ log = [⟨⟨p, input, output⟩, r⟩] := by
  constructor
  · rintro (_ | later)
    obtain ⟨rfl, rfl⟩ := leads_done.1 later
    rfl
  · rintro rfl
    exact .ask (.done r)

/-- A run of a script that goes on as another is a run of each. -/
theorem leads_bind : (s >>= f).Leads log b ↔
    ∃ first rest a, log = first ++ rest ∧ s.Leads first a ∧ (f a).Leads rest b := by
  constructor
  · intro h
    induction s generalizing log with
    | done a => exact ⟨[], log, a, rfl, .done a, h⟩
    | ask call next ih =>
      obtain _ | later := h
      obtain ⟨first, rest, a, rfl, hs, hf⟩ := ih _ later
      exact ⟨_ :: first, rest, a, rfl, .ask hs, hf⟩
  · rintro ⟨first, rest, a, rfl, hs, hf⟩
    induction hs with
    | done a => exact hf
    | ask later ih => exact .ask (ih hf)

/-- Every script has a run: all calls may fail. -/
theorem exists_leads (s : Script α) : ∃ log a, s.Leads log a := by
  induction s with
  | done a => exact ⟨[], a, .done a⟩
  | ask call next ih =>
    obtain ⟨log, a, later⟩ := ih (.failed (.invalidArgument .noOperations) call.output)
    exact ⟨_, a, .ask later⟩

/-! ## Scripts with the same first calls -/

/-- Each run of the first script has a run of the second one with the same first `n` calls, and
the same outcomes of these. -/
def AgreeFor (n : Nat) (s t : Script α) : Prop :=
  ∀ log a, s.Leads log a → ∃ log' a', t.Leads log' a' ∧ log'.take n = log.take n

namespace AgreeFor

variable {n : Nat}

theorem zero (s t : Script α) : AgreeFor 0 s t := fun _ _ _ => by
  obtain ⟨log', a', h'⟩ := t.exists_leads
  exact ⟨log', a', h', rfl⟩

theorem done (n : Nat) (a b : α) : AgreeFor n (done a) (done b) := fun _ _ h => by
  obtain ⟨rfl, rfl⟩ := leads_done.1 h
  exact ⟨[], b, .done b, rfl⟩

/-- The same script at first, and then scripts that agree for the calls that are left. -/
theorem bind (same : ∀ log a, s.Leads log a → AgreeFor (n - log.length) (f a) (g a)) :
    AgreeFor n (s >>= f) (s >>= g) := by
  intro log b h
  obtain ⟨first, rest, a, rfl, hs, hf⟩ := leads_bind.1 h
  obtain ⟨rest', b', hg, taken⟩ := same first a hs rest b hf
  refine ⟨first ++ rest', b', leads_bind.2 ⟨first, rest', a, rfl, hs, hg⟩, ?_⟩
  rw [List.take_append, List.take_append, taken]

end AgreeFor

end Script

end Raster
