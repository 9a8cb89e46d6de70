import Mathlib.Algebra.BigOperators.Group.List.Basic
import Mathlib.Algebra.Ring.Nat
import Mathlib.Data.List.Induction
import BoundsCheck.Stats.Total

/-!
# Totals in any order

The records of the cores are kept in no particular order, and neither are the counts of the
violations within a record.  A total is made by adding one record after the other, and to each of
its counts those of the record, one after the other.  It comes out the same in any order: it has the
sum of each counter, and for each kind of violation the sum of the counts that there are.

* `Stats.Checker.sums`, `Stats.Cache.sums` — several records summed up counter by counter.
* `Stats.Checker.Visit` — a record together with an order of its counts.
* `Stats.Checker.foldl_visit`, `Stats.Cache.foldl_add` — adding up gives the sums.
* `Stats.totals_in_any_order` — the totals over all cores.
-/

set_option autoImplicit false

namespace BoundsCheck.Stats

/-! ## Violations by kind -/

namespace Violations

variable {v w : Violations}

/-- The counts that there are, each with its kind. -/
def entries (v : Violations) : List (Violation × Nat) :=
  [Violation.outOfBounds, .writeToReadOnly].filterMap fun kind => (v.get? kind).map (kind, ·)

/-- Adds several counts, one after the other. -/
def bumpAll (v : Violations) (counts : List (Violation × Nat)) : Violations :=
  counts.foldl (fun v count => v.bump count.1 count.2) v

theorem bump_bump (v : Violations) (kind other : Violation) (n k : Nat) :
    (v.bump kind n).bump other k = (v.bump other k).bump kind n := by
  cases kind <;> cases other <;> simp [bump, Nat.add_right_comm]

theorem bumpAll_entries (v w : Violations) : v.bumpAll w.entries = v.add w := by
  obtain ⟨_ | _, _ | _⟩ := w <;> rfl

/-- Counts can be added in any order. -/
theorem bumpAll_of_perm {counts : List (Violation × Nat)} (h : counts.Perm w.entries) :
    v.bumpAll counts = v.add w := by
  rw [← bumpAll_entries]
  exact h.foldl_eq' (fun first _ second _ v => bump_bump v first.1 second.1 first.2 second.2) v

theorem total_add (v w : Violations) : (v.add w).total = v.total + w.total := by
  obtain ⟨_ | _, _ | _⟩ := w <;> simp [add, bump?, bump, total] <;> omega

theorem sum_entries (v : Violations) : (v.entries.map (·.2)).sum = v.total := by
  obtain ⟨_ | _, _ | _⟩ := v <;> simp [entries, get?, total]

end Violations

/-! ## Checkers -/

namespace Checker

/-- The counters of several checkers summed up one by one, and for each kind of violation the counts
that there are. -/
def sums (records : List Checker) : Checker where
  traces := (records.map (·.traces)).sum
  lookups := (records.map (·.lookups)).sum
  responses := (records.map (·.responses)).sum
  emitted := (records.map (·.emitted)).sum
  unresolved := (records.map (·.unresolved)).sum
  emptyTraceStalls := (records.map (·.emptyTraceStalls)).sum
  valid := (records.map (·.valid)).sum
  untracked := (records.map (·.untracked)).sum
  violations :=
    ⟨some (records.filterMap (·.violations.outOfBounds)).sum,
      some (records.filterMap (·.violations.writeToReadOnly)).sum⟩

theorem get?_violations_sums (records : List Checker) (kind : Violation) :
    (sums records).violations.get? kind
      = some (records.filterMap (·.violations.get? kind)).sum := by
  cases kind <;> rfl

theorem sums_concat (records : List Checker) (record : Checker) :
    sums (records ++ [record]) = (sums records).add record := by
  have hviolations : (sums (records ++ [record])).violations
      = (sums records).violations.add record.violations := by
    -- a kind without a count adds nothing
    rcases hcounts : record.violations with ⟨_ | _, _ | _⟩ <;>
      simp [sums, Violations.add, Violations.bump?, Violations.bump, hcounts]
  rw [add, ← hviolations]
  simp [sums]

/-- Adding up several records gives the sums. -/
theorem foldl_add (records : List Checker) : records.foldl add {} = sums records := by
  induction records using List.reverseRecOn with
  | nil => rfl
  | append_singleton records record ih => rw [List.foldl_concat, ih, sums_concat]

theorem sums_of_perm {records others : List Checker} (h : records.Perm others) :
    sums records = sums others := by
  simp only [sums, (h.map _).sum_eq, (h.filterMap _).sum_eq]

/-- All violations are the violations of all. -/
theorem total_violations_sums (records : List Checker) :
    (sums records).violations.total = (records.map (·.violations.total)).sum := by
  induction records using List.reverseRecOn with
  | nil => rfl
  | append_singleton records record ih =>
    rw [List.map_append, List.sum_append, ← ih, sums_concat, add, Violations.total_add]
    rfl

/-- A record as it is visited, with its counts of violations in some order. -/
structure Visit where
  record : Checker
  counts : List (Violation × Nat)
  perm : counts.Perm record.violations.entries

/-- Adds the counters of a record to those so far. -/
def visit (a : Checker) (visited : Visit) : Checker :=
  { a.add visited.record with violations := a.violations.bumpAll visited.counts }

theorem visit_eq_add (a : Checker) (visited : Visit) : a.visit visited = a.add visited.record := by
  rw [visit, Violations.bumpAll_of_perm visited.perm]
  rfl

/-- **However several records are visited, their counters are summed up.** -/
theorem foldl_visit {visits : List Visit} {records : List Checker}
    (h : (visits.map (·.record)).Perm records) : visits.foldl visit {} = sums records := by
  have hvisit : visit = fun a visited => a.add visited.record := by
    funext a visited
    exact visit_eq_add a visited
  rw [hvisit, ← sums_of_perm h, ← foldl_add, List.foldl_map]

end Checker

/-! ## Caches -/

namespace Cache

/-- The counters of several caches summed up one by one. -/
def sums (records : List Cache) : Cache where
  reads := (records.map (·.reads)).sum
  readMisses := (records.map (·.readMisses)).sum
  mergedMisses := (records.map (·.mergedMisses)).sum
  hits := (records.map (·.hits)).sum
  evictions := (records.map (·.evictions)).sum
  pipelineStalls := (records.map (·.pipelineStalls)).sum
  memLatency := (records.map (·.memLatency)).sum

/-- Adding up several records gives the sums. -/
theorem foldl_add (records : List Cache) : records.foldl add {} = sums records := by
  induction records using List.reverseRecOn with
  | nil => rfl
  | append_singleton records record ih =>
    rw [List.foldl_concat, ih]
    simp [sums, add]

theorem sums_of_perm {records others : List Cache} (h : records.Perm others) :
    sums records = sums others := by
  simp only [sums, (h.map _).sum_eq]

theorem misses_sums (records : List Cache) :
    (sums records).misses = (records.map (·.misses)).sum :=
  List.sum_map_add.symm

end Cache

/-! ## All cores -/

/-- **The order in which records are visited makes no difference to the totals.**  They have the sum
of each counter over all cores, and for each kind of violation the sum of the counts that there
are.  All violations together and all misses are sums over the cores as well. -/
theorem totals_in_any_order (checkers : PerCore Checker) (caches : PerCore Cache) :
    (checkers.totalChecker = Checker.sums checkers.values ∧
      ∀ visits : List Checker.Visit, (visits.map (·.record)).Perm checkers.values →
        visits.foldl Checker.visit {} = checkers.totalChecker) ∧
    (∀ kind, checkers.totalChecker.violations.get? kind
      = some (checkers.values.filterMap (·.violations.get? kind)).sum) ∧
    (checkers.totalChecker.violations.total = (checkers.values.map (·.violations.total)).sum ∧
      ∀ counts : List (Violation × Nat), counts.Perm checkers.totalChecker.violations.entries →
        (counts.map (·.2)).sum = checkers.totalChecker.violations.total) ∧
    (caches.totalCache = Cache.sums caches.values ∧
      ∀ records : List Cache, records.Perm caches.values →
        records.foldl Cache.add {} = caches.totalCache) ∧
    caches.totalCache.misses = (caches.values.map (·.misses)).sum := by
  have hchecker : checkers.totalChecker = Checker.sums checkers.values :=
    Checker.foldl_add checkers.values
  have hcache : caches.totalCache = Cache.sums caches.values := Cache.foldl_add caches.values
  rw [hchecker, hcache]
  refine ⟨⟨rfl, fun visits => Checker.foldl_visit⟩, Checker.get?_violations_sums checkers.values,
    ⟨Checker.total_violations_sums checkers.values, fun counts hcounts => ?_⟩,
    ⟨rfl, fun records hrecords => ?_⟩, Cache.misses_sums caches.values⟩
  · rw [(hcounts.map _).sum_eq, Violations.sum_entries]
  · rw [Cache.foldl_add, Cache.sums_of_perm hrecords]

/-- Two cores visited the other way round, one of them without a count of its stores to read-only
buffers, and the counts of the other one the other way round as well. -/
theorem totals_in_any_order_two_cores :
    let first : Checker := { emitted := 3, violations := ⟨some 2, none⟩ }
    let second : Checker := { emitted := 4, violations := ⟨some 3, some 1⟩ }
    let checkers : PerCore Checker := ⟨[(0, first), (1, second)]⟩
    let visits : List Checker.Visit :=
      [⟨second, [(.writeToReadOnly, 1), (.outOfBounds, 3)], by decide⟩,
        ⟨first, [(.outOfBounds, 2)], by decide⟩]
    visits.foldl Checker.visit {} = checkers.totalChecker ∧
      checkers.totalChecker = { emitted := 7, violations := ⟨some 5, some 1⟩ } ∧
      checkers.totalChecker.violations.total = 6 ∧
      [({ hits := 2 } : Cache), { readMisses := 1 }].foldl Cache.add {} =
        (⟨[(0, { readMisses := 1 }), (1, { hits := 2 })]⟩ : PerCore Cache).totalCache :=
  have hall := totals_in_any_order
    ⟨[(0, { emitted := 3, violations := ⟨some 2, none⟩ }),
      (1, { emitted := 4, violations := ⟨some 3, some 1⟩ })]⟩
    ⟨[(0, { readMisses := 1 }), (1, { hits := 2 })]⟩
  ⟨hall.1.2 _ (by decide), rfl,
    (hall.2.2.1.2 [(.writeToReadOnly, 1), (.outOfBounds, 5)] (by decide)).symm,
    hall.2.2.2.1.2 _ (by decide)⟩

end BoundsCheck.Stats
