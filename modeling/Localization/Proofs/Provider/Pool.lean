import Mathlib.Algebra.GroupWithZero.Nat
import Mathlib.Data.List.Count
import Mathlib.Data.List.Nodup
import Mathlib.Data.List.Range
import Mathlib.Logic.Relation

/-! Requests that are under way at once, but no more of them than a limit allows. Nothing says which
of the waiting requests is sent next, or which of those under way is answered next. An answer is
kept at the place of its request, so once nothing is left to happen the answers are in the order of
the requests, whatever happened when. -/

namespace Localization.Provider

variable {ρ : Type}

/-- How far a request has got. -/
inductive Stage (ρ : Type) where
  | waiting
  | underway
  | answered (r : ρ)
  deriving DecidableEq

namespace Stage

def isUnderway : Stage ρ → Bool
  | .underway => true
  | _ => false

def answer? : Stage ρ → Option ρ
  | .answered r => some r
  | _ => none

/-- How much is left to happen to a request. -/
def remaining : Stage ρ → Nat
  | .waiting => 2
  | .underway => 1
  | .answered _ => 0

end Stage

/-- Requests on their way, and the places of those that have been sent, in the order of sending. -/
structure Pool (ρ : Type) where
  stages : List (Stage ρ)
  sent : List Nat

namespace Pool

def start (n : Nat) : Pool ρ := ⟨List.replicate n .waiting, []⟩

/-- How many requests are under way. -/
def underway (p : Pool ρ) : Nat := p.stages.countP Stage.isUnderway

/-- The answers in the order of the requests. -/
def answers (p : Pool ρ) : List ρ := p.stages.filterMap Stage.answer?

/-- One thing that happens: a waiting request is sent, if few enough are under way, or one that is
under way gets the outcome at its place as its answer. -/
inductive Step (limit : Nat) (outcomes : List ρ) : Pool ρ → Pool ρ → Prop
  | send {p : Pool ρ} {i : Nat} (hwaiting : p.stages[i]? = some .waiting)
    (hfree : p.underway < limit) :
    Step limit outcomes p ⟨p.stages.set i .underway, p.sent ++ [i]⟩
  | answer {p : Pool ρ} {i : Nat} {r : ρ} (hunderway : p.stages[i]? = some .underway)
    (hr : outcomes[i]? = some r) :
    Step limit outcomes p ⟨p.stages.set i (.answered r), p.sent⟩

/-- What holds whenever requests with these outcomes are on their way. -/
structure Sound (outcomes : List ρ) (p : Pool ρ) : Prop where
  length : p.stages.length = outcomes.length
  outcome {i : Nat} {r : ρ} (h : p.stages[i]? = some (.answered r)) : outcomes[i]? = some r
  nodup : p.sent.Nodup
  mem_sent (i : Nat) : i ∈ p.sent ↔ ∃ s, p.stages[i]? = some s ∧ s ≠ .waiting

variable {limit : Nat} {outcomes : List ρ} {p q : Pool ρ}

theorem sound_start (outcomes : List ρ) : Sound outcomes (start outcomes.length) := by
  have hwaiting : ∀ (i : Nat) (s : Stage ρ),
      (start outcomes.length : Pool ρ).stages[i]? = some s → s = .waiting :=
    fun i s hs => (List.mem_replicate.mp (List.mem_of_getElem? hs)).2
  refine ⟨List.length_replicate, fun {i r} hi => ?_, List.nodup_nil, fun i => ?_⟩
  · cases hwaiting i _ hi
  · constructor
    · intro hi
      cases hi
    · rintro ⟨s, hs, hne⟩
      exact absurd (hwaiting i s hs) hne

theorem getElem?_set {stages : List (Stage ρ)} {i : Nat} {s : Stage ρ} (h : stages[i]? = some s)
    (t : Stage ρ) (j : Nat) : (stages.set i t)[j]? = if j = i then some t else stages[j]? := by
  obtain ⟨hi, -⟩ := List.getElem?_eq_some_iff.mp h
  by_cases hj : j = i
  · simp [hj, hi]
  · simp [hj, Ne.symm hj]

theorem Sound.step (h : Sound outcomes p) (hstep : Step limit outcomes p q) : Sound outcomes q := by
  cases hstep with
  | @send i hwaiting hfree =>
    have hnew : i ∉ p.sent := fun hi => by
      obtain ⟨s, hs, hne⟩ := (h.mem_sent i).mp hi
      exact hne (Option.some.inj (hs.symm.trans hwaiting))
    refine ⟨by rw [List.length_set, h.length], fun {j r} hj => ?_, ?_, fun j => ?_⟩
    · rw [getElem?_set hwaiting] at hj
      split at hj
      · cases hj
      · exact h.outcome hj
    · exact List.nodup_append.mpr ⟨h.nodup, List.nodup_singleton i, fun a ha b hb hab =>
        hnew (List.mem_singleton.mp hb ▸ hab ▸ ha)⟩
    · rw [getElem?_set hwaiting, List.mem_append, List.mem_singleton, h.mem_sent]
      by_cases hj : j = i <;> simp [hj]
  | @answer i r hunderway hr =>
    refine ⟨by rw [List.length_set, h.length], fun {j t} hj => ?_, h.nodup, fun j => ?_⟩
    · rw [getElem?_set hunderway] at hj
      split at hj
      · rename_i hji
        obtain rfl := Stage.answered.inj (Option.some.inj hj)
        rw [hji, hr]
      · exact h.outcome hj
    · rw [getElem?_set hunderway, h.mem_sent]
      by_cases hj : j = i
      · simp [hj, hunderway]
      · simp [hj]

theorem Sound.run (h : Sound outcomes p) (hrun : Relation.ReflTransGen (Step limit outcomes) p q) :
    Sound outcomes q := by
  induction hrun with
  | refl => exact h
  | tail _ hstep ih => exact ih.step hstep

/-- Something can happen unless every request is answered. -/
theorem Sound.answered (h : Sound outcomes p) (hlimit : 0 < limit)
    (hstuck : ∀ q, ¬ Step limit outcomes p q) : p.stages = outcomes.map .answered := by
  have hnone : ∀ i : Nat, p.stages[i]? ≠ some Stage.underway := by
    intro i hi
    obtain ⟨hlt, -⟩ := List.getElem?_eq_some_iff.mp hi
    rw [h.length] at hlt
    exact hstuck _ (.answer hi (List.getElem?_eq_getElem hlt))
  have hfree : p.underway = 0 := by
    rw [underway, List.countP_eq_zero]
    intro s hs hunderway
    obtain ⟨i, hi⟩ := List.mem_iff_getElem?.mp hs
    cases s with
    | underway => exact hnone i hi
    | _ => cases hunderway
  refine List.ext_getElem (by simp [h.length]) fun i hi _ => ?_
  have hstage : p.stages[i]? = some p.stages[i] := List.getElem?_eq_getElem hi
  rw [List.getElem_map]
  cases hs : p.stages[i] with
  | waiting => exact absurd (.send (hs ▸ hstage) (hfree ▸ hlimit)) (hstuck _)
  | underway => exact absurd (hs ▸ hstage) (hnone i)
  | answered r =>
    obtain ⟨hlt, hr⟩ := List.getElem?_eq_some_iff.mp (h.outcome (hs ▸ hstage))
    rw [hr]

/-- How much is left to happen. -/
def remaining (p : Pool ρ) : Nat := (p.stages.map Stage.remaining).sum

theorem remaining_set {stages : List (Stage ρ)} {i : Nat} {s t : Stage ρ}
    (h : stages[i]? = some s) (hlt : t.remaining < s.remaining) :
    ((stages.set i t).map Stage.remaining).sum < (stages.map Stage.remaining).sum := by
  induction stages generalizing i with
  | nil => cases h
  | cons u stages ih =>
    cases i with
    | zero =>
      obtain rfl := Option.some.inj h
      simp only [List.set_cons_zero, List.map_cons, List.sum_cons]
      omega
    | succ i =>
      have hrest := ih h
      simp only [List.set_cons_succ, List.map_cons, List.sum_cons]
      omega

theorem Step.remaining_lt (h : Step limit outcomes p q) : q.remaining < p.remaining := by
  cases h with
  | send hwaiting hfree => exact remaining_set hwaiting Nat.one_lt_two
  | answer hunderway hr => exact remaining_set hunderway Nat.one_pos

/-- However requests are sent and answered, at the end nothing is left to happen. -/
theorem exists_stuck (limit : Nat) (outcomes : List ρ) (p : Pool ρ) :
    ∃ q, Relation.ReflTransGen (Step limit outcomes) p q ∧ ∀ r, ¬ Step limit outcomes q r := by
  induction hn : p.remaining using Nat.strong_induction_on generalizing p with
  | _ n ih =>
    by_cases hstuck : ∀ r, ¬ Step limit outcomes p r
    · exact ⟨p, .refl, hstuck⟩
    · simp only [not_forall, not_not] at hstuck
      obtain ⟨r, hstep⟩ := hstuck
      obtain ⟨q, hrun, hq⟩ := ih r.remaining (hn ▸ hstep.remaining_lt) r rfl
      exact ⟨q, .head hstep hrun, hq⟩

/-- Requests with these outcomes have been let go, and nothing is left to happen. -/
def Ends (limit : Nat) (outcomes : List ρ) (p : Pool ρ) : Prop :=
  Relation.ReflTransGen (Step limit outcomes) (start outcomes.length) p ∧
    ∀ q, ¬ Step limit outcomes p q

/-- At the end every request has been sent once. -/
theorem Ends.sent_perm (h : Ends limit outcomes p) (hlimit : 0 < limit) :
    p.sent.Perm (List.range outcomes.length) := by
  have hsound := (sound_start outcomes).run h.1
  have hanswered := hsound.answered hlimit h.2
  refine (List.perm_ext_iff_of_nodup hsound.nodup List.nodup_range).mpr fun i => ?_
  rw [hsound.mem_sent, List.mem_range, hanswered]
  constructor
  · rintro ⟨s, hs, -⟩
    obtain ⟨hi, -⟩ := List.getElem?_eq_some_iff.mp hs
    simpa using hi
  · intro hi
    exact ⟨.answered outcomes[i], by simp [hi], by simp⟩

/-- At the end the answers are the outcomes, in the order of the requests. -/
theorem Ends.answers_eq (h : Ends limit outcomes p) (hlimit : 0 < limit) :
    p.answers = outcomes := by
  rw [answers, ((sound_start outcomes).run h.1).answered hlimit h.2, List.filterMap_map]
  exact List.filterMap_some

end Pool

end Localization.Provider
