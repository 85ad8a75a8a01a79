import Mathlib.Data.Nat.Notation
import Mathlib.Logic.Function.Iterate

/-!
# Runs of a labelled step function

A system is a state and a step for each label; a run is a list of labels. `Along` says that every
step meets a condition on the state before it and its label. What every such step keeps holds at the
end (`run_invariant`); steps that make a measure smaller come to an end (`iterate_ended`); what
every step balances the run does (`trace_balance`); and two systems whose steps correspond have the
same traces (`run_simulation`). A step may be undefined, and give a result: a run whose steps
correspond to those of a total system is defined (`runOption_refines`), with its results
(`runOutput_refines`).
-/

namespace VigorTls.Lib

open List

variable {σ ι : Type} {step : σ → ι → σ} {P Q : σ → ι → Prop} {Inv : σ → Prop}

def run (step : σ → ι → σ) (s : σ) (labels : List ι) : σ := labels.foldl step s

@[simp] theorem run_nil (step : σ → ι → σ) (s : σ) : run step s [] = s := rfl

@[simp] theorem run_cons (step : σ → ι → σ) (s : σ) (label : ι) (labels : List ι) :
    run step s (label :: labels) = run step (step s label) labels := rfl

theorem run_append (step : σ → ι → σ) (s : σ) (labels labels' : List ι) :
    run step s (labels ++ labels') = run step (run step s labels) labels' := foldl_append

/-- Every step of a run meets a condition. -/
def Along (step : σ → ι → σ) (P : σ → ι → Prop) : σ → List ι → Prop
  | _, [] => True
  | s, label :: labels => P s label ∧ Along step P (step s label) labels

instance Along.decidable (step : σ → ι → σ) (P : σ → ι → Prop) [∀ s label, Decidable (P s label)] :
    ∀ s labels, Decidable (Along step P s labels)
  | _, [] => .isTrue trivial
  | s, label :: labels =>
    have := Along.decidable step P (step s label) labels
    inferInstanceAs (Decidable (P s label ∧ Along step P (step s label) labels))

theorem along_append {labels' : List ι} :
    ∀ {labels : List ι} {s : σ}, Along step P s (labels ++ labels') ↔
      Along step P s labels ∧ Along step P (run step s labels) labels'
  | [], _ => ⟨fun h => ⟨trivial, h⟩, fun h => h.2⟩
  | _ :: _, _ => by
    rw [cons_append, Along, Along, along_append, and_assoc, run_cons]

theorem along_of_forall : ∀ {labels : List ι} (s : σ),
    (∀ label ∈ labels, ∀ s, P s label) → Along step P s labels
  | [], _, _ => trivial
  | _ :: _, s, h =>
    ⟨h _ mem_cons_self s, along_of_forall _ fun label hl => h label (mem_cons_of_mem _ hl)⟩

theorem Along.and : ∀ {labels : List ι} {s : σ},
    Along step P s labels → Along step Q s labels →
    Along step (fun s label => P s label ∧ Q s label) s labels
  | [], _, _, _ => trivial
  | _ :: _, _, hP, hQ => ⟨⟨hP.1, hQ.1⟩, hP.2.and hQ.2⟩

/-- An invariant of the steps that meet a condition is one of the runs whose steps all do. -/
theorem run_invariant (hstep : ∀ s label, Inv s → P s label → Inv (step s label)) :
    ∀ (labels : List ι) (s : σ), Inv s → Along step P s labels → Inv (run step s labels)
  | [], _, h, _ => h
  | label :: labels, s, h, hP =>
    run_invariant hstep labels (step s label) (hstep s label h hP.1) hP.2

/-- An invariant of every step is one of every run. -/
theorem run_invariant_all (hstep : ∀ s label, Inv s → Inv (step s label)) (labels : List ι) :
    ∀ s, Inv s → Inv (run step s labels) := by
  induction labels with
  | nil => exact fun _ h => h
  | cons label labels ih => exact fun s h => ih (step s label) (hstep s label h)

/-- Under an invariant, two conditions that agree on each step agree on runs. -/
theorem along_congr (hinv : ∀ s label, Inv s → Inv (step s label))
    (hPQ : ∀ s label, Inv s → (P s label ↔ Q s label)) :
    ∀ (labels : List ι) (s : σ), Inv s → (Along step P s labels ↔ Along step Q s labels)
  | [], _, _ => Iff.rfl
  | label :: labels, s, h =>
    and_congr (hPQ s label h) (along_congr hinv hPQ labels (step s label) (hinv s label h))

/-- If every step before the end makes a measure smaller, there is an end after as many. -/
theorem iterate_ended {step : σ → σ} {Ended : σ → Prop} {μ : σ → ℕ}
    (hstep : ∀ s, ¬ Ended s → μ (step s) < μ s) (hended : ∀ s, Ended s → Ended (step s)) :
    ∀ (n : ℕ) (s : σ), μ s ≤ n → Ended (step^[n] s)
  | 0, s, h => by
    by_contra hs
    exact absurd (hstep s hs) (by omega)
  | n + 1, s, h => by
    by_cases hs : Ended s
    · exact Nat.rec hs (fun k ih => step.iterate_succ_apply' k s ▸ hended _ ih) (n + 1)
    · exact iterate_ended hstep hended n (step s) (by have := hstep s hs; omega)

/-- What is observed in the steps of a run, in order. -/
def trace {β : Type} (step : σ → ι → σ) (observe : σ → ι → List β) : σ → List ι → List β
  | _, [] => []
  | s, label :: labels => observe s label ++ trace step observe (step s label) labels

theorem trace_append {β : Type} (observe : σ → ι → List β) (labels' : List ι) :
    ∀ (labels : List ι) (s : σ), trace step observe s (labels ++ labels') =
      trace step observe s labels ++ trace step observe (run step s labels) labels'
  | [], _ => rfl
  | label :: labels, s => by
    rw [cons_append, trace, trace, trace_append observe labels' labels, append_assoc, run_cons]

/-- What is observed in a run is observed in its steps. -/
theorem along_of_trace {β : Type} {observe : σ → ι → List β} {Q : β → Prop} :
    ∀ {labels : List ι} {s : σ}, (∀ b ∈ trace step observe s labels, Q b) →
      Along step (fun s label => ∀ b ∈ observe s label, Q b) s labels
  | [], _, _ => trivial
  | _ :: _, _, h => ⟨fun b hb => h b (mem_append_left _ hb),
      along_of_trace fun b hb => h b (mem_append_right _ hb)⟩

theorem trace_flatMap {β γ : Type} (observe : σ → ι → List β) (f : β → List γ) :
    ∀ (labels : List ι) (s : σ), trace step (fun s label => (observe s label).flatMap f) s labels =
      (trace step observe s labels).flatMap f
  | [], _ => rfl
  | label :: labels, s => by
    rw [trace, trace, flatMap_append, trace_flatMap observe f labels (step s label)]

section

variable {β : Type} {step : σ → ι → σ} {P : σ → ι → Prop} {Inv : σ → Prop}
  (hinv : ∀ s label, Inv s → P s label → Inv (step s label))

include hinv

theorem trace_forall {observe : σ → ι → List β} {Q : β → Prop}
    (hstep : ∀ s label, Inv s → P s label → ∀ b ∈ observe s label, Q b) :
    ∀ (labels : List ι) (s : σ), Inv s → Along step P s labels →
      ∀ b ∈ trace step observe s labels, Q b
  | [], _, _, _, _, hb => nomatch hb
  | label :: labels, s, h, hP, b, hb => by
    rcases mem_append.mp hb with hb | hb
    · exact hstep s label h hP.1 b hb
    · exact trace_forall hstep labels (step s label) (hinv s label h hP.1) hP.2 b hb

/-- If every step gives out what it holds and takes in, but for what it holds then, so does a run.
-/
theorem trace_balance {taken given : σ → ι → List β} {held : σ → List β}
    (hstep : ∀ s label, Inv s → P s label →
      held s ++ taken s label = given s label ++ held (step s label)) :
    ∀ (labels : List ι) (s : σ), Inv s → Along step P s labels →
      held s ++ trace step taken s labels = trace step given s labels ++ held (run step s labels)
  | [], s, _, _ => by simp [trace]
  | label :: labels, s, h, hP => by
    have ih := trace_balance hstep labels (step s label) (hinv s label h hP.1) hP.2
    calc held s ++ (taken s label ++ trace step taken (step s label) labels)
        = given s label ++ (held (step s label) ++ trace step taken (step s label) labels) := by
          rw [← append_assoc, hstep s label h hP.1, append_assoc]
      _ = given s label ++ trace step given (step s label) labels ++
            held (run step (step s label) labels) := by rw [ih, append_assoc]

end

/-- If related states take related steps and show the same, then so do runs. -/
theorem run_simulation {τ β : Type} {step : σ → ι → σ} {step' : τ → ι → τ} {P : σ → ι → Prop}
    {R : σ → τ → Prop} {observe : σ → ι → List β} {observe' : τ → ι → List β}
    (hstep : ∀ s t label, R s t → P s label → R (step s label) (step' t label) ∧
      observe s label = observe' t label) :
    ∀ (labels : List ι) (s : σ) (t : τ), R s t → Along step P s labels →
      R (run step s labels) (run step' t labels) ∧
        trace step observe s labels = trace step' observe' t labels
  | [], _, _, h, _ => ⟨h, rfl⟩
  | label :: labels, s, t, h, hP => by
    obtain ⟨hR, hobserve⟩ := hstep s t label h hP.1
    obtain ⟨hrun, htrace⟩ := run_simulation hstep labels (step s label) (step' t label) hR hP.2
    exact ⟨hrun, by rw [trace, trace, hobserve, htrace]⟩

/-! ## Steps that may be undefined -/

section

variable {τ β γ : Type}

/-- A run that ends where a step is undefined. -/
def runOption (step : σ → ι → Option σ) (s : σ) (labels : List ι) : Option σ := labels.foldlM step s

/-- Every step of a run, as long as they are defined, meets a condition on its state and on that
of a second system. -/
def AlongOption (step : σ → ι → Option σ) (step' : τ → ι → τ) (P : σ → τ → ι → Prop) :
    σ → τ → List ι → Prop
  | _, _, [] => True
  | s, t, label :: labels =>
    P s t label ∧ ∀ s' ∈ step s label, AlongOption step step' P s' (step' t label) labels

instance AlongOption.decidable (step : σ → ι → Option σ) (step' : τ → ι → τ)
    (P : σ → τ → ι → Prop) [∀ s t label, Decidable (P s t label)] :
    ∀ s t labels, Decidable (AlongOption step step' P s t labels)
  | _, _, [] => .isTrue trivial
  | s, t, label :: labels =>
    have := fun s' => AlongOption.decidable step step' P s' (step' t label) labels
    inferInstanceAs (Decidable (P s t label ∧
      ∀ s' ∈ step s label, AlongOption step step' P s' (step' t label) labels))

variable {step : σ → ι → Option σ} {step' : τ → ι → τ} {P : σ → τ → ι → Prop} {Q : τ → ι → Prop}
  {R : σ → τ → Prop}

/-- A condition on the steps of the second system alone. -/
theorem Along.option : ∀ {labels : List ι} {t : τ} (s : σ), Along step' Q t labels →
    AlongOption step step' (fun _ t label => Q t label) s t labels
  | [], _, _, _ => trivial
  | _ :: _, _, _, h => ⟨h.1, fun s' _ => h.2.option s'⟩

theorem AlongOption.and {P' : σ → τ → ι → Prop} : ∀ {labels : List ι} {s : σ} {t : τ},
    AlongOption step step' P s t labels → AlongOption step step' P' s t labels →
    AlongOption step step' (fun s t label => P s t label ∧ P' s t label) s t labels
  | [], _, _, _, _ => trivial
  | _ :: _, _, _, hP, hP' => ⟨⟨hP.1, hP'.1⟩, fun s' hs' => (hP.2 s' hs').and (hP'.2 s' hs')⟩

/-- A run whose steps correspond to those of the second system is defined. -/
theorem runOption_refines (hstep : ∀ s t label, R s t → P s t label →
      ∃ s', step s label = some s' ∧ R s' (step' t label)) :
    ∀ {labels : List ι} {s : σ} {t : τ}, R s t → AlongOption step step' P s t labels →
      ∃ s', runOption step s labels = some s' ∧ R s' (run step' t labels)
  | [], s, _, h, _ => ⟨s, rfl, h⟩
  | label :: labels, s, t, h, hP => by
    obtain ⟨s₁, hs₁, h₁⟩ := hstep s t label h hP.1
    obtain ⟨s₂, hrun, h₂⟩ := runOption_refines hstep h₁ (hP.2 s₁ hs₁)
    exact ⟨s₂, by rw [runOption, foldlM_cons, hs₁]; exact hrun, h₂⟩

/-- A run with what its steps return. -/
def runOutput (step : σ → ι → Option (β × σ)) : σ → List ι → Option (List β × σ)
  | s, [] => some ([], s)
  | s, label :: labels => do
    let (out, s) ← step s label
    let (outs, s) ← runOutput step s labels
    some (out :: outs, s)

/-- A run of a total step with what its steps return. -/
def runOutputs (step : τ → ι → γ × τ) (t : τ) (labels : List ι) : List γ × τ :=
  (trace (fun t label => (step t label).2) (fun t label => [(step t label).1]) t labels,
    run (fun t label => (step t label).2) t labels)

/-- A run whose steps correspond to those of a total system returns what that does. -/
theorem runOutput_refines {step : σ → ι → Option (β × σ)} {step' : τ → ι → γ × τ} {g : β → γ}
    (hstep : ∀ s t label, R s t → P s t label →
      ∃ out s', step s label = some (out, s') ∧ g out = (step' t label).1 ∧
        R s' (step' t label).2) :
    ∀ {labels : List ι} {s : σ} {t : τ}, R s t →
      AlongOption (fun s label => (step s label).map Prod.snd) (fun t label => (step' t label).2) P
        s t labels →
      ∃ outs s', runOutput step s labels = some (outs, s') ∧
        outs.map g = (runOutputs step' t labels).1 ∧ R s' (runOutputs step' t labels).2
  | [], s, _, h, _ => ⟨[], s, rfl, rfl, h⟩
  | label :: labels, s, t, h, hP => by
    obtain ⟨out, s₁, hs₁, hout, h₁⟩ := hstep s t label h hP.1
    obtain ⟨outs, s₂, hrun, houts, h₂⟩ :=
      runOutput_refines hstep h₁ (hP.2 s₁ (Option.mem_map_of_mem Prod.snd hs₁))
    refine ⟨out :: outs, s₂, ?_, congrArg₂ cons hout houts, h₂⟩
    rw [runOutput, hs₁, Option.bind_eq_bind, Option.bind_some]
    dsimp only
    rw [hrun]
    rfl

end

end VigorTls.Lib
