/-
# `Lineage` — the instances whose bills count together

An instance that an old migration moved to another host kept its bills under
the row it had before.  `getInstanceBillingLineageIds` follows the migration
messages back from row to row; the rows it collects, oldest first, are the
billing lineage.  A predecessor is a deleted row of the same user that fits a
message, so every row of a lineage but the last is a deleted one
(`deleted_of_mem_lineage`).

The search is a loop over a growing set of visited rows.  `fuel` bounds it by
the number of rows, and that is enough: more fuel changes nothing
(`lineageFrom_fuel`).
-/
import Incudal.Store

namespace Incudal

/-- Thirty minutes. -/
def migrationWindow : Time := 30 * 60 * 1000

/-- `getBillingLineageSeed`. -/
def MigrationHistory.seed (h : MigrationHistory) (instanceId : ℕ) : Option BillingLineageSeed :=
  Keyed.lookup BillingLineageSeed.id instanceId h.seeds

/-- The deleted rows that fit a message about `seed`. -/
def deletedCandidates (h : MigrationHistory) (seed : BillingLineageSeed)
    (message : MigrationMessage) (oldHostId : ℕ) : List BillingLineageSeed :=
  let expectedName := match message.instanceName with
    | some name => if name.all Char.isWhitespace then seed.name else name
    | none => seed.name
  h.seeds.filter fun c =>
    c.userId == seed.userId && c.hostId == oldHostId && c.name == expectedName
      && c.status == .deleted && c.id != seed.id
      && decide (message.createdAt - migrationWindow ≤ c.updatedAt)
      && decide (c.updatedAt ≤ message.createdAt + migrationWindow)

/-- The one candidate to take, if one is singled out. -/
def chooseCandidate (seed : BillingLineageSeed) (candidates : List BillingLineageSeed) :
    Option BillingLineageSeed :=
  let preferred := candidates.filter fun c => c.expiresAt == seed.expiresAt
  let withRecords := candidates.filter (·.hasBillingRecords)
  match candidates with
  | [c] => some c
  | _ =>
      match preferred with
      | [c] => some c
      | _ =>
          match withRecords with
          | [c] => some c
          | _ => none

/-- `resolveImmediateMigratedBillingSource`: the first message that singles out
a predecessor decides. -/
def resolveImmediateMigratedBillingSource (h : MigrationHistory) (seed : BillingLineageSeed) :
    Option ℕ :=
  let messages := h.messages.filter fun m =>
    m.userId == seed.userId && m.instanceId == some seed.id
      && m.newHostId.all (· == seed.hostId)
  messages.findSome? fun m =>
    match m.oldHostId with
    | none => none
    | some oldHostId =>
        (chooseCandidate seed (deletedCandidates h seed m oldHostId)).map (·.id)

/-- The loop: `lineage` holds the rows visited so far, the newest predecessor first. -/
def lineageFrom (h : MigrationHistory) : ℕ → Option BillingLineageSeed → List ℕ → List ℕ
  | 0, _, lineage => lineage
  | _ + 1, none, lineage => lineage
  | fuel + 1, some current, lineage =>
      if current.id ∈ lineage then lineage
      else
        match resolveImmediateMigratedBillingSource h current with
        | none => current.id :: lineage
        | some predecessorId =>
            if predecessorId ∈ current.id :: lineage then current.id :: lineage
            else lineageFrom h fuel (h.seed predecessorId) (current.id :: lineage)

/-- `getInstanceBillingLineageIds`. -/
def getInstanceBillingLineageIds (h : MigrationHistory) (instanceId : ℕ) : List ℕ :=
  match lineageFrom h (h.seeds.length + 1) (h.seed instanceId) [] with
  | [] => [instanceId]
  | lineage => lineage

/-! ## What is in a lineage -/

section Membership

variable {h : MigrationHistory} {seed : BillingLineageSeed} {lineage : List ℕ} {i j fuel : ℕ}

theorem mem_of_chooseCandidate {candidates : List BillingLineageSeed} {c : BillingLineageSeed}
    (hc : chooseCandidate seed candidates = some c) : c ∈ candidates := by
  have hfilter {p : BillingLineageSeed → Bool} {d : BillingLineageSeed}
      (hp : candidates.filter p = [d]) : d ∈ candidates :=
    List.mem_of_mem_filter (p := p) (by simp [hp])
  unfold chooseCandidate at hc
  dsimp only at hc
  split at hc
  · cases hc
    exact List.mem_singleton.mpr rfl
  split at hc
  · cases hc
    exact hfilter ‹_›
  split at hc
  · cases hc
    exact hfilter ‹_›
  · cases hc

/-- A predecessor is a deleted row. -/
theorem deleted_of_resolve (hr : resolveImmediateMigratedBillingSource h seed = some j) :
    ∃ c ∈ h.seeds, c.id = j ∧ c.status = .deleted := by
  obtain ⟨m, -, hm⟩ := List.exists_of_findSome?_eq_some hr
  cases hold : m.oldHostId with
  | none => simp [hold] at hm
  | some oldHostId =>
      simp only [hold, Option.map_eq_some_iff] at hm
      obtain ⟨c, hc, rfl⟩ := hm
      have hmem := mem_of_chooseCandidate hc
      simp only [deletedCandidates, List.mem_filter, Bool.and_eq_true, beq_iff_eq] at hmem
      exact ⟨c, hmem.1, rfl, hmem.2.1.1.1.2⟩

theorem seed_id (hs : h.seed i = some seed) : seed.id = i := (Keyed.mem_of_lookup hs).2

/-- The loop keeps what it has visited, and what it adds to the row it starts
with is deleted. -/
theorem mem_lineageFrom (hj : j ∈ lineageFrom h fuel (h.seed i) lineage) :
    j ∈ lineage ∨ j = i ∨ ∃ c ∈ h.seeds, c.id = j ∧ c.status = .deleted := by
  induction fuel generalizing i lineage with
  | zero => exact .inl hj
  | succ fuel ih =>
      cases hseed : h.seed i with
      | none =>
          rw [hseed] at hj
          exact .inl hj
      | some current =>
          have hid := seed_id hseed
          rw [hseed, lineageFrom] at hj
          split at hj
          · exact .inl hj
          · have hcons (hmem : j ∈ current.id :: lineage) :
                j ∈ lineage ∨ j = i ∨ ∃ c ∈ h.seeds, c.id = j ∧ c.status = .deleted := by
              rcases List.mem_cons.mp hmem with rfl | hmem
              · exact .inr (.inl hid)
              · exact .inl hmem
            split at hj
            · exact hcons hj
            · rename_i predecessorId hresolve
              split at hj
              · exact hcons hj
              · rcases ih hj with hmem | rfl | hdel
                · exact hcons hmem
                · exact .inr (.inr (deleted_of_resolve hresolve))
                · exact .inr (.inr hdel)

theorem subset_lineageFrom {cur : Option BillingLineageSeed} (hj : j ∈ lineage) :
    j ∈ lineageFrom h fuel cur lineage := by
  induction fuel generalizing cur lineage with
  | zero => exact hj
  | succ fuel ih =>
      cases cur with
      | none => exact hj
      | some current =>
          have hcons : j ∈ current.id :: lineage := List.mem_cons_of_mem _ hj
          rw [lineageFrom]
          split
          · exact hj
          split
          · exact hcons
          split
          · exact hcons
          · exact ih hcons

/-- An instance belongs to its own lineage. -/
theorem self_mem_lineage (h : MigrationHistory) (i : ℕ) :
    i ∈ getInstanceBillingLineageIds h i := by
  unfold getInstanceBillingLineageIds
  cases hseed : h.seed i with
  | none => simp [lineageFrom]
  | some current =>
      have hmem : i ∈ lineageFrom h (h.seeds.length + 1) (some current) [] := by
        rw [lineageFrom, if_neg List.not_mem_nil]
        have hself : i ∈ [current.id] := List.mem_singleton.mpr (seed_id hseed).symm
        split
        · exact hself
        split
        · exact hself
        · exact subset_lineageFrom hself
      split
      · rename_i hnil
        rw [hnil] at hmem
        cases hmem
      · exact hmem

/-- Every other row of a lineage is a deleted one. -/
theorem deleted_of_mem_lineage (hj : j ∈ getInstanceBillingLineageIds h i) :
    j = i ∨ ∃ c ∈ h.seeds, c.id = j ∧ c.status = .deleted := by
  unfold getInstanceBillingLineageIds at hj
  split at hj
  · exact .inl (List.mem_singleton.mp hj)
  · rcases mem_lineageFrom hj with hnil | hj
    · cases hnil
    · exact hj

/-- The rows not visited yet. -/
def unvisited (h : MigrationHistory) (lineage : List ℕ) : ℕ :=
  (h.seeds.filter fun c => c.id ∉ lineage).length

theorem unvisited_cons_lt (hmem : seed ∈ h.seeds) (hnew : seed.id ∉ lineage) :
    unvisited h (seed.id :: lineage) < unvisited h lineage := by
  have hsub : (h.seeds.filter fun c => c.id ∉ seed.id :: lineage)
      = (h.seeds.filter fun c => c.id ∉ lineage).filter fun c => c.id ≠ seed.id := by
    rw [List.filter_filter]
    refine List.filter_congr fun c _ => ?_
    simp [not_or]
  unfold unvisited
  rw [hsub]
  refine List.length_filter_lt_length_iff_exists.mpr ⟨seed, ?_, by simp⟩
  exact List.mem_filter.mpr ⟨hmem, by simpa using hnew⟩

/-- Fuel for the unvisited rows and one more is enough. -/
theorem lineageFrom_fuel (hfuel : unvisited h lineage < fuel) :
    lineageFrom h (fuel + 1) (h.seed i) lineage = lineageFrom h fuel (h.seed i) lineage := by
  induction fuel generalizing i lineage with
  | zero => omega
  | succ fuel ih =>
      cases hseed : h.seed i with
      | none => rfl
      | some current =>
          rw [lineageFrom, lineageFrom]
          by_cases hvisited : current.id ∈ lineage
          · rw [if_pos hvisited, if_pos hvisited]
          · rw [if_neg hvisited, if_neg hvisited]
            have hlt := unvisited_cons_lt (Keyed.mem_of_lookup hseed).1 hvisited
            split
            · rfl
            · split
              · rfl
              · exact ih (by omega)

/-- The search ends with the rounds it has: more of them find nothing more.  An instance is in its
lineage, and all other rows there are deleted ones. -/
theorem lineage_found (h : MigrationHistory) (i rounds : ℕ) :
    lineageFrom h (h.seeds.length + 1 + rounds) (h.seed i) [] =
        lineageFrom h (h.seeds.length + 1) (h.seed i) [] ∧
      i ∈ getInstanceBillingLineageIds h i ∧
      ∀ j ∈ getInstanceBillingLineageIds h i,
        j = i ∨ ∃ c ∈ h.seeds, c.id = j ∧ c.status = .deleted := by
  refine ⟨?_, self_mem_lineage h i, fun j => deleted_of_mem_lineage⟩
  induction rounds with
  | zero => rfl
  | succ rounds ih =>
      have hle : unvisited h [] ≤ h.seeds.length := List.length_filter_le _ _
      have hfuel : unvisited h [] < h.seeds.length + 1 + rounds := by omega
      exact (lineageFrom_fuel hfuel).trans ih

end Membership

end Incudal
