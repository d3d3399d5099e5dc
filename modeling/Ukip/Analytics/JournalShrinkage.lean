import Ukip.Foundation.FallibleLoop
import Ukip.Foundation.Grouping
import Ukip.Foundation.Quotients

/-!
# Shrunken impact factors

`journal_normalization_bayes.py` on exact numbers.  A division that fails makes the run fail, and
the results are not rounded to four places.  `round` is the one that turns a rate into a count of
citations, and `credible` the two quantiles of `scipy.stats.gamma`.
-/

namespace Ukip.Analytics.JournalShrinkage

open Foundation.FallibleLoop Foundation.Grouping Foundation.Quotients

/-- What the batch reads of a row of `journal_metrics`. -/
structure JournalMetric where
  id : Nat
  orgId : Option Nat
  twoYrMeanCitedness : Option Rat
  works2yr : Option Int
  nifField : Option String

/-- A journal with its rate, its works and its count of citations. -/
structure Observation where
  row : JournalMetric
  rate : Rat
  n : Int
  c : Rat
  positive : 0 < n

/-- `r.nif_field or "all"` -/
def Observation.field (observation : Observation) : String :=
  match observation.row.nifField with
  | none => "all"
  | some name => if name = "" then "all" else name

structure Prior where
  a : Rat
  b : Rat

structure Prior.Positive (prior : Prior) : Prop where
  shape : 0 < prior.a
  rate : 0 < prior.b

structure Shrunk where
  observation : Observation
  prior : Prior
  ratePost : Rat
  nifBayes : Rat
  nifCiLow : Rat
  nifCiHigh : Rat

def smallBucketK : Nat := 5

def eps : Rat := 1 / 10 ^ 6

/-- `np.var` -/
def variance (values : List Rat) : Option Rat := do
  let center ← mean values
  mean (values.map fun value => (value - center) ^ 2)

def fitPrior (observations : List Observation) : Option Prior := do
  let m ← divide (observations.map fun o => o.rate * (o.n : Rat)).sum
    (observations.map fun o => (o.n : Rat)).sum
  if m ≤ 0 then some ⟨eps, eps⟩
  else do
    let rawVar ← variance (observations.map Observation.rate)
    let noise ← observations.mapM fun o => divide m o.n
    let sampling ← mean noise
    let v := max (rawVar - sampling) eps
    let a ← divide (m * m) v
    let b ← divide m v
    some ⟨a, b⟩

section Batch

variable (round : Rat → Rat) (credible : Rat → Rat → Rat × Rat)

def observe (row : JournalMetric) : Option Observation :=
  match row.twoYrMeanCitedness, row.works2yr with
  | some rate, some n =>
    if positive : 0 < n then some ⟨row, rate, n, round (rate * n), positive⟩ else none
  | _, _ => none

def observations (orgId : Option Nat) (rows : List JournalMetric) : List Observation :=
  (rows.filter fun row => orgId.isNone || decide (row.orgId = orgId)).filterMap (observe round)

def buckets (observations : List Observation) : List (String × List Observation) :=
  grouped (observations.map fun o => (o.field, o))

def priorOf (global : Prior) (group : List Observation) : Option Prior :=
  if smallBucketK ≤ group.length then fitPrior group else some global

def shrink (prior : Prior) (ref : Rat) (o : Observation) : Option Shrunk := do
  let postA := prior.a + o.c
  let postB := prior.b + o.n
  let ratePost ← divide postA postB
  let scale ← divide 1 postB
  let bounds := credible postA scale
  let nifBayes ← divide ratePost ref
  let nifCiLow ← divide bounds.1 ref
  let nifCiHigh ← divide bounds.2 ref
  some ⟨o, prior, ratePost, nifBayes, nifCiLow, nifCiHigh⟩

def shrinkBucket (global : Prior) (group : List Observation) : Option (List Shrunk) := do
  let prior ← priorOf global group
  let ref ← divide prior.a prior.b
  if ref ≤ 0 then some [] else group.mapM (shrink credible prior ref)

/-- `normalize_impact_factors_bayes`, the journals that it writes. -/
def normalizeImpactFactorsBayes (orgId : Option Nat) (rows : List JournalMetric) :
    Option (List Shrunk) :=
  match observations round orgId rows with
  | [] => some []
  | first :: others => do
    let global ← fitPrior (first :: others)
    let written ← (buckets (first :: others)).mapM fun bucket =>
      shrinkBucket credible global bucket.2
    some written.flatten

end Batch

theorem eps_pos : 0 < eps := by norm_num [eps]

theorem Observation.works_pos (o : Observation) : (0 : Rat) < o.n := by exact_mod_cast o.positive

theorem works_sum_pos {observations : List Observation} (filled : observations ≠ []) :
    0 < (observations.map fun o => (o.n : Rat)).sum := by
  cases observations with
  | nil => exact absurd rfl filled
  | cons first others =>
    have rest : 0 ≤ (others.map fun o => (o.n : Rat)).sum := by
      refine List.sum_nonneg fun value member => ?_
      obtain ⟨o, _, rfl⟩ := List.mem_map.mp member
      exact o.works_pos.le
    rw [List.map_cons, List.sum_cons]
    linarith [first.works_pos]

theorem variance_ne_none {values : List Rat} (filled : values ≠ []) :
    ∃ spread, variance values = some spread := by
  unfold variance
  rw [mean_of_ne_nil filled]
  exact ⟨_, mean_of_ne_nil (by simpa using filled)⟩

theorem fitPrior_positive {observations : List Observation} (filled : observations ≠ []) :
    ∃ prior, fitPrior observations = some prior ∧ prior.Positive := by
  unfold fitPrior
  rw [divide_of_ne_zero _ (works_sum_pos filled).ne', Option.bind_eq_bind, Option.bind_some]
  generalize (observations.map fun o => o.rate * (o.n : Rat)).sum /
    (observations.map fun o => (o.n : Rat)).sum = m
  by_cases none_cited : m ≤ 0
  · rw [if_pos none_cited]
    exact ⟨_, rfl, ⟨eps_pos, eps_pos⟩⟩
  · have positive : 0 < m := not_le.mp none_cited
    obtain ⟨rawVar, spread⟩ : ∃ rawVar, variance (observations.map Observation.rate) = some rawVar :=
      variance_ne_none (by simpa using filled)
    have noise : observations.mapM (fun o => divide m (o.n : Rat)) =
        some (observations.map fun o => m / (o.n : Rat)) :=
      mapM_eq_some_map observations fun o _ => divide_of_ne_zero m o.works_pos.ne'
    have sampling : mean (observations.map fun o => m / (o.n : Rat)) = some _ :=
      mean_of_ne_nil (by simpa using filled)
    have floored (value : Rat) : 0 < max value eps := lt_max_of_lt_right eps_pos
    rw [if_neg none_cited, spread, noise]
    simp only [Option.bind_eq_bind, Option.bind_some, sampling]
    rw [divide_of_ne_zero _ (floored _).ne', divide_of_ne_zero _ (floored _).ne']
    exact ⟨_, rfl, ⟨div_pos (mul_pos positive positive) (floored _), div_pos positive (floored _)⟩⟩

section Posterior

variable (credible : Rat → Rat → Rat × Rat)

def shrunk (prior : Prior) (o : Observation) : Shrunk where
  observation := o
  prior := prior
  ratePost := (prior.a + o.c) / (prior.b + o.n)
  nifBayes := (prior.a + o.c) / (prior.b + o.n) / (prior.a / prior.b)
  nifCiLow := (credible (prior.a + o.c) (1 / (prior.b + o.n))).1 / (prior.a / prior.b)
  nifCiHigh := (credible (prior.a + o.c) (1 / (prior.b + o.n))).2 / (prior.a / prior.b)

variable {prior : Prior}

theorem Prior.Positive.ref_pos (positive : prior.Positive) :
    0 < prior.a / prior.b := div_pos positive.shape positive.rate

theorem shrink_eq (positive : prior.Positive) (o : Observation) :
    shrink credible prior (prior.a / prior.b) o = some (shrunk credible prior o) := by
  have total : prior.b + (o.n : Rat) ≠ 0 := (add_pos positive.rate o.works_pos).ne'
  have ref := positive.ref_pos.ne'
  simp only [shrink, divide_of_ne_zero _ total, divide_of_ne_zero _ ref, Option.bind_eq_bind,
    Option.bind_some]
  rfl

theorem priorOf_positive {global : Prior} (positive : global.Positive) {group : List Observation}
    (filled : group ≠ []) : ∃ prior, priorOf global group = some prior ∧ prior.Positive := by
  unfold priorOf
  split
  · exact fitPrior_positive filled
  · exact ⟨global, rfl, positive⟩

theorem shrinkBucket_eq {global prior : Prior} {group : List Observation}
    (fitted : priorOf global group = some prior) (positive : prior.Positive) :
    shrinkBucket credible global group = some (group.map (shrunk credible prior)) := by
  have written : group.mapM (shrink credible prior (prior.a / prior.b)) =
      some (group.map (shrunk credible prior)) :=
    mapM_eq_some_map group fun o _ => shrink_eq credible positive o
  simp only [shrinkBucket, fitted, Option.bind_eq_bind, Option.bind_some,
    divide_of_ne_zero _ positive.rate.ne', if_neg positive.ref_pos.not_ge, written]

theorem mem_buckets {observations : List Observation} {bucket : String × List Observation}
    (member : bucket ∈ buckets observations) :
    bucket.2 ≠ [] ∧ ∀ o ∈ bucket.2, o.field = bucket.1 := by
  obtain ⟨keyed, items⟩ := (mem_grouped_iff _ _).mp member
  constructor
  · obtain ⟨pair, inPairs, same⟩ := List.mem_map.mp keyed
    rw [items]
    refine List.ne_nil_of_mem ((mem_itemsOf_iff _ _ pair.2).mpr ?_)
    exact same ▸ inPairs
  · intro o inBucket
    rw [items, mem_itemsOf_iff] at inBucket
    obtain ⟨_, _, same⟩ := List.mem_map.mp inBucket
    obtain ⟨key, rfl⟩ := Prod.mk.inj same
    exact key

/-- Every run comes to its end: it writes each eligible journal once, with the prior of the
journal's bucket. -/
theorem run_spec (round : Rat → Rat) (orgId : Option Nat) (rows : List JournalMetric) :
    ∃ (prior : String → Prior) (written : List Shrunk),
      normalizeImpactFactorsBayes round credible orgId rows = some written ∧
        (written.map Shrunk.observation).Perm (observations round orgId rows) ∧
          ∀ journal ∈ written, (prior journal.observation.field).Positive ∧
            journal = shrunk credible (prior journal.observation.field) journal.observation := by
  unfold normalizeImpactFactorsBayes
  cases observations round orgId rows with
  | nil => exact ⟨fun _ => ⟨1, 1⟩, [], rfl, List.Perm.refl _, by simp⟩
  | cons first others =>
    obtain ⟨global, fitted, positive⟩ := fitPrior_positive (List.cons_ne_nil first others)
    -- the prior of a bucket, found by its key
    let pairs := (first :: others).map fun o => (o.field, o)
    let prior (field : String) : Prior := (priorOf global (itemsOf pairs field)).getD ⟨1, 1⟩
    have priors : ∀ bucket ∈ buckets (first :: others),
        priorOf global bucket.2 = some (prior bucket.1) ∧ (prior bucket.1).Positive := by
      intro bucket member
      obtain ⟨own, found, proper⟩ := priorOf_positive positive (mem_buckets member).1
      have same : prior bucket.1 = own := by
        simp only [prior, pairs, ← ((mem_grouped_iff _ _).mp member).2, found, Option.getD_some]
      rw [same]
      exact ⟨found, proper⟩
    have runs : (buckets (first :: others)).mapM (fun bucket => shrinkBucket credible global bucket.2) =
        some ((buckets (first :: others)).map fun bucket =>
          bucket.2.map (shrunk credible (prior bucket.1))) :=
      mapM_eq_some_map _ fun bucket member =>
        shrinkBucket_eq credible (priors bucket member).1 (priors bucket member).2
    refine ⟨prior, ((buckets (first :: others)).map fun bucket =>
      bucket.2.map (shrunk credible (prior bucket.1))).flatten, ?_, ?_, ?_⟩
    · simp only [fitted, runs, Option.bind_eq_bind, Option.bind_some]
    · have once := flatMap_grouped_perm pairs
      have items : pairs.map Prod.snd = first :: others := by
        simp [pairs, Function.comp_def]
      rw [items] at once
      refine (List.Perm.of_eq ?_).trans once
      simp [List.map_flatten, List.flatMap, shrunk, Function.comp_def, buckets, pairs]
    · intro journal member
      obtain ⟨_, inBuckets, inBucket⟩ := List.mem_flatten.mp member
      obtain ⟨bucket, found, rfl⟩ := List.mem_map.mp inBuckets
      obtain ⟨o, inside, rfl⟩ := List.mem_map.mp inBucket
      have key : (shrunk credible (prior bucket.1) o).observation.field = bucket.1 :=
        (mem_buckets found).2 o inside
      rw [key]
      exact ⟨(priors bucket found).2, rfl⟩

theorem shrunk_between (positive : prior.Positive) (o : Observation) :
    Between (prior.a / prior.b) (o.c / o.n) (shrunk credible prior o).ratePost :=
  mediant_between positive.rate o.works_pos

theorem shrunk_mono (positive : prior.Positive) {first second : Observation}
    (works : first.n = second.n) (cited : first.c ≤ second.c) :
    (shrunk credible prior first).nifBayes ≤ (shrunk credible prior second).nifBayes := by
  have rates := mediant_mono (a := prior.a) positive.rate first.works_pos cited
  rw [works] at rates
  unfold shrunk
  dsimp only
  rw [works]
  exact div_le_div_of_nonneg_right rates positive.ref_pos.le

theorem shrunk_distance (positive : prior.Positive) {first second : Observation}
    (rates : first.c / first.n = second.c / second.n) (works : first.n ≤ second.n) :
    |(shrunk credible prior first).nifBayes - 1| ≤ |(shrunk credible prior second).nifBayes - 1| := by
  have heavier : (first.n : Rat) ≤ second.n := by exact_mod_cast works
  have apart : 0 ≤ |(second.c : Rat) / second.n - prior.a / prior.b| / (prior.a / prior.b) :=
    div_nonneg (abs_nonneg _) positive.ref_pos.le
  unfold shrunk
  dsimp only
  rw [abs_mediant_div_sub_one positive.shape positive.rate first.works_pos,
    abs_mediant_div_sub_one positive.shape positive.rate second.works_pos, rates]
  exact mul_le_mul_of_nonneg_right (weight_mono positive.rate first.works_pos heavier) apart

/-- The batch divides by zero nowhere and writes every eligible journal, each posterior between the
mean of a proper prior and the observed rate.  Within a bucket more citations for the same works
never lower the result, and more works at the same rate never bring it closer to one. -/
theorem shrinkage_sound (round : Rat → Rat) (credible : Rat → Rat → Rat × Rat) (orgId : Option Nat)
    (rows : List JournalMetric) :
    (∀ group prior, fitPrior group = some prior → 0 < prior.a ∧ 0 < prior.b) ∧
    ∃ written, normalizeImpactFactorsBayes round credible orgId rows = some written ∧
      (written.map Shrunk.observation).Perm (observations round orgId rows) ∧
      (∀ journal ∈ written, 0 < journal.prior.a ∧ 0 < journal.prior.b ∧
        Between (journal.prior.a / journal.prior.b) (journal.observation.c / journal.observation.n)
          journal.ratePost) ∧
      ∀ first ∈ written, ∀ second ∈ written, first.observation.field = second.observation.field →
        (first.observation.n = second.observation.n → first.observation.c ≤ second.observation.c →
          first.nifBayes ≤ second.nifBayes) ∧
        (first.observation.c / first.observation.n = second.observation.c / second.observation.n →
          first.observation.n ≤ second.observation.n →
            |first.nifBayes - 1| ≤ |second.nifBayes - 1|) := by
  constructor
  · intro group prior fitted
    have filled : group ≠ [] := by
      rintro rfl
      cases fitted
    obtain ⟨own, found, positive⟩ := fitPrior_positive filled
    cases fitted.symm.trans found
    exact ⟨positive.shape, positive.rate⟩
  obtain ⟨prior, written, run, once, journals⟩ := run_spec credible round orgId rows
  refine ⟨written, run, once, ?_, ?_⟩
  · intro journal member
    obtain ⟨positive, isShrunk⟩ := journals journal member
    rw [isShrunk]
    exact ⟨positive.shape, positive.rate, shrunk_between credible positive _⟩
  · intro first firstMember second secondMember same
    obtain ⟨positive, isFirst⟩ := journals first firstMember
    obtain ⟨_, isSecond⟩ := journals second secondMember
    rw [← same] at isSecond
    rw [isFirst, isSecond]
    exact ⟨shrunk_mono credible positive, shrunk_distance credible positive⟩

end Posterior

end Ukip.Analytics.JournalShrinkage
