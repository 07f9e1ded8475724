/-
# `TrafficCounters` — counting bytes from two streams of counter samples

The raw rx/tx counters of an instance reach the database on two ways: the
panel reads them itself (`applyTrafficCounters`) and the host's agent reports
them (`applyReportedTrafficCounters`).  Both compare the sample with the last
stored snapshot, add the increments to the instance, its owner's quota and the
day's row, and store the sample as the new snapshot, in one transaction under
the instance's traffic lock.  So a run is a sequence of whole applications;
what is free is the order in which samples of the two producers are applied.

The increment rule answers a smaller sample with 0 and takes it as the new
baseline.  A run therefore accounts for the *climb* of the applied samples
(`used_run`), which is more than the growth of the counters as soon as a late
sample opens a valley (`accounted_le_growth_iff`).
-/
import Incudal.Basic
import Incudal.Lib.Ascent
import Incudal.Lib.Keyed
import Mathlib.Algebra.Order.Group.Nat
import Mathlib.Order.Monotone.Defs

namespace Incudal

/-! ## The increment rule -/

/-- One reading of the raw counters. -/
@[ext] structure Counters where
  rxBytes : ℕ
  txBytes : ℕ
deriving DecidableEq, Repr

/-- `calculateIncrement`: a smaller reading is taken for a counter restart. -/
def calculateIncrement (current last : ℕ) : ℕ :=
  if current < last then 0 else current - last

/-- `isTransientEmptyCounterSample`: both counters read zero where they did not before. -/
def isTransientEmptyCounterSample (currentRx currentTx lastRx lastTx : ℕ) : Bool :=
  currentRx == 0 && currentTx == 0 && (decide (lastRx > 0) || decide (lastTx > 0))

theorem calculateIncrement_eq_sub (current last : ℕ) :
    calculateIncrement current last = current - last := by
  unfold calculateIncrement
  split <;> omega

/-! ## The rows of one instance -/

/-- A calendar day, counted from a fixed one. -/
abbrev Day := ℤ

/-- Whether the instance is held back for its traffic. -/
inductive TrafficStatus
  | normal | warning | limited
deriving DecidableEq, Repr

/-- The traffic columns of an instance.  `trafficUnitPrice` is in hundredths of
a cent per GiB: the column holds cents with two decimals. -/
structure TrafficInstance where
  id : ℕ := 0
  hostId : ℕ := 0
  userId : ℕ := 0
  status : InstanceStatus
  suspendedAt : Option Time := none
  suspendReason : Option String := none
  monthlyTrafficLimit : Option ℕ := none
  monthlyTrafficUsed : ℕ := 0
  trafficStatus : TrafficStatus := .normal
  trafficBillingMode : TrafficBillingMode := .package
  trafficUnitPrice : ℕ := 0
  trafficSettledBytes : ℕ := 0
  trafficSettledCost : Cents := 0
  nextTrafficBillingAt : Option Time := none
  version : ℕ := 0
deriving DecidableEq, Repr

/-- The increment of the usage column. -/
def TrafficInstance.accrue (inst : TrafficInstance) (delta : ℕ) : TrafficInstance :=
  { inst with monthlyTrafficUsed := inst.monthlyTrafficUsed + delta }

/-- A row of the daily table. -/
structure DailyTraffic where
  date : Day
  rxTotal : ℕ
  txTotal : ℕ
deriving DecidableEq, Repr

/-- The instance, its snapshot, its owner's quota and its daily rows. -/
structure TrafficState where
  instance? : Option TrafficInstance
  trafficSnapshot : Option Counters
  userQuota : Option ℕ
  dailyTraffic : List DailyTraffic
deriving DecidableEq, Repr

namespace TrafficState

/-- The bytes accounted to the instance. -/
def used (s : TrafficState) : ℕ := (s.instance?.map (·.monthlyTrafficUsed)).getD 0

/-- The status of the instance, if there is one. -/
def status? (s : TrafficState) : Option InstanceStatus := s.instance?.map (·.status)

end TrafficState

/-- The upsert of a day's row. -/
def upsertDailyTraffic (date : Day) (rxIncrement txIncrement : ℕ) (rows : List DailyTraffic) :
    List DailyTraffic :=
  match Keyed.lookup DailyTraffic.date date rows with
  | some _ => Keyed.modify DailyTraffic.date date (fun r =>
      { r with rxTotal := r.rxTotal + rxIncrement, txTotal := r.txTotal + txIncrement }) rows
  | none => rows ++ [⟨date, rxIncrement, txIncrement⟩]

/-- The increment of one counter against the snapshot; the first sample has none. -/
def incrementOf (channel : Counters → ℕ) (counters : Counters) (last : Option Counters) : ℕ :=
  match last with
  | some snapshot => calculateIncrement (channel counters) (channel snapshot)
  | none => 0

/-- The writes both producers end in: the snapshot, and with a positive total
the instance, the quota and the day. -/
def commitCounters (s : TrafficState) (inst : TrafficInstance) (counters : Counters) (date : Day) :
    TrafficState × ℕ :=
  let rxIncrement := incrementOf (·.rxBytes) counters s.trafficSnapshot
  let txIncrement := incrementOf (·.txBytes) counters s.trafficSnapshot
  let totalDelta := rxIncrement + txIncrement
  let s' := { s with trafficSnapshot := some counters }
  if totalDelta > 0 then
    ({ s' with
        instance? := some (inst.accrue totalDelta)
        userQuota := s.userQuota.map (· + totalDelta)
        dailyTraffic := upsertDailyTraffic date rxIncrement txIncrement s.dailyTraffic },
      totalDelta)
  else (s', 0)

/-- Whether the snapshot makes the sample a transient empty one. -/
def transientEmpty (s : TrafficState) (counters : Counters) : Bool :=
  match s.trafficSnapshot with
  | some last =>
      isTransientEmptyCounterSample counters.rxBytes counters.txBytes last.rxBytes last.txBytes
  | none => false

/-! ## The panel's producer -/

/-- What the panel's application answers. -/
structure CollectResult where
  totalDelta : ℕ
  currentUsage : ℕ
deriving DecidableEq, Repr

/-- `applyTrafficCounters`. -/
def applyTrafficCounters (s : TrafficState) (counters : Counters) (date : Day) :
    Except String (TrafficState × CollectResult) :=
  match s.instance? with
  | none => .error "实例不存在"
  | some inst =>
      if transientEmpty s counters then
        .ok (s, { totalDelta := 0, currentUsage := inst.monthlyTrafficUsed })
      else
        let (s', totalDelta) := commitCounters s inst counters date
        .ok (s', { totalDelta, currentUsage := inst.monthlyTrafficUsed + totalDelta })

/-! ## The agent's producer -/

/-- The counters of an agent item, after parsing; `none` is `null`. -/
structure NormalizedAgentInstanceItem where
  status : Option InstanceStatus
  rxBytes : Option ℕ
  txBytes : Option ℕ
deriving DecidableEq, Repr

/-- `shouldApplyTraffic`. -/
def shouldApplyTraffic (currentStatus : InstanceStatus) (item : NormalizedAgentInstanceItem) :
    Bool :=
  if item.status != some .running || item.rxBytes == none || item.txBytes == none then false
  else currentStatus == .running || currentStatus == .stopped || currentStatus == .error

/-- `applyReportedTrafficCounters`; `seen` is the status read before the lock. -/
def applyReportedTrafficCounters (s : TrafficState) (seen : InstanceStatus)
    (item : NormalizedAgentInstanceItem) (date : Day) : TrafficState × Bool × ℕ :=
  if !shouldApplyTraffic seen item then (s, false, 0)
  else
    match s.instance?, item.rxBytes, item.txBytes with
    | some inst, some rxBytes, some txBytes =>
        if !shouldApplyTraffic inst.status item then (s, false, 0)
        else if transientEmpty s ⟨rxBytes, txBytes⟩ then (s, false, 0)
        else
          let (s', delta) := commitCounters s inst ⟨rxBytes, txBytes⟩ date
          (s', true, delta)
    | _, _, _ => (s, false, 0)

/-! ## Runs of the two producers -/

/-- What happens to the instance: either producer applies the sample it took
at some instant of the true counters, or some other part of the program writes
the status. -/
inductive TrafficEvent
  | panel (sample : ℕ) (date : Day)
  | agent (sample : ℕ) (seen : InstanceStatus) (reported : Option InstanceStatus) (date : Day)
  | setStatus (status : InstanceStatus)
deriving DecidableEq, Repr

section Runs

-- the counters as they really were, instant by instant
variable (truth : ℕ → Counters)

/-- The agent's item for the counters at an instant. -/
def agentItem (sample : ℕ) (reported : Option InstanceStatus) : NormalizedAgentInstanceItem :=
  { status := reported
    rxBytes := some (truth sample).rxBytes
    txBytes := some (truth sample).txBytes }

/-- One event. -/
def trafficStep (s : TrafficState) : TrafficEvent → TrafficState
  | .panel sample date =>
      match applyTrafficCounters s (truth sample) date with
      | .ok (s', _) => s'
      | .error _ => s
  | .agent sample seen reported date =>
      (applyReportedTrafficCounters s seen (agentItem truth sample reported) date).1
  | .setStatus status => { s with instance? := s.instance?.map ({ · with status }) }

/-- A run. -/
def trafficRun : TrafficState → List TrafficEvent → TrafficState
  | s, [] => s
  | s, e :: es => trafficRun (trafficStep truth s e) es

/-- The sample that an event applies at a status (`none`: no such instance):
the instance is there, and for the agent both the status read first and the one
under the lock accept the report. -/
def appliedSample (status? : Option InstanceStatus) : TrafficEvent → Option ℕ
  | .panel sample _ => status?.map fun _ => sample
  | .agent sample seen reported _ =>
      match status? with
      | some status =>
          let item := agentItem truth sample reported
          if shouldApplyTraffic seen item && shouldApplyTraffic status item then some sample
          else none
      | none => none
  | .setStatus _ => none

/-- The status after an event: applying a sample does not write it. -/
def statusAfter (status? : Option InstanceStatus) : TrafficEvent → Option InstanceStatus
  | .setStatus status => status?.map fun _ => status
  | _ => status?

/-- The samples that the events apply, in the order of their application. -/
def appliedSamples : Option InstanceStatus → List TrafficEvent → List ℕ
  | _, [] => []
  | status?, e :: es =>
      (appliedSample truth status? e).toList ++ appliedSamples (statusAfter status? e) es

end Runs

/-! ## One step: a sample is applied or the counters stay -/

section Steps

variable {truth : ℕ → Counters} {s : TrafficState} {e : TrafficEvent}

theorem transientEmpty_iff {last counters : Counters} (h : s.trafficSnapshot = some last) :
    transientEmpty s counters = true ↔ counters = ⟨0, 0⟩ ∧ last ≠ ⟨0, 0⟩ := by
  simp only [transientEmpty, h, isTransientEmptyCounterSample, Bool.and_eq_true, beq_iff_eq,
    Bool.or_eq_true, decide_eq_true_eq, Counters.ext_iff, ne_eq, not_and_or]
  omega

@[simp] theorem commitCounters_snapshot (inst : TrafficInstance) (counters : Counters)
    (date : Day) : (commitCounters s inst counters date).1.trafficSnapshot = some counters := by
  unfold commitCounters
  dsimp only
  split <;> rfl

theorem commitCounters_used {inst : TrafficInstance} (h : s.instance? = some inst)
    (counters : Counters) (date : Day) :
    (commitCounters s inst counters date).1.used
      = s.used + (incrementOf (·.rxBytes) counters s.trafficSnapshot
          + incrementOf (·.txBytes) counters s.trafficSnapshot) := by
  unfold commitCounters
  dsimp only
  split
  · simp [TrafficState.used, TrafficInstance.accrue, h]
  · simp only [TrafficState.used, h]
    omega

theorem commitCounters_status {inst : TrafficInstance} (h : s.instance? = some inst)
    (counters : Counters) (date : Day) :
    (commitCounters s inst counters date).1.status? = s.status? := by
  unfold commitCounters
  dsimp only
  split <;> simp [TrafficState.status?, TrafficInstance.accrue, h]

/-- What one event does when a sample is applied: nothing at a transient empty
sample, else the writes both producers share. -/
theorem trafficStep_applied {i : ℕ} (h : appliedSample truth s.status? e = some i) :
    (transientEmpty s (truth i) = true ∧ trafficStep truth s e = s) ∨
    (transientEmpty s (truth i) = false ∧ ∃ inst date, s.instance? = some inst ∧
      trafficStep truth s e = (commitCounters s inst (truth i) date).1) := by
  cases e with
  | panel sample date =>
      simp only [appliedSample, TrafficState.status?, Option.map_map, Function.comp_def,
        Option.map_eq_some_iff] at h
      obtain ⟨inst, hinst, rfl⟩ := h
      cases hte : transientEmpty s (truth sample) with
      | true => exact .inl ⟨rfl, by simp [trafficStep, applyTrafficCounters, hinst, hte]⟩
      | false =>
          exact .inr ⟨rfl, inst, date, hinst, by
            simp [trafficStep, applyTrafficCounters, hinst, hte]⟩
  | agent sample seen reported date =>
      simp only [appliedSample, TrafficState.status?] at h
      cases hinst : s.instance? with
      | none => simp [hinst] at h
      | some inst =>
          simp only [hinst, Option.map_some, Bool.and_eq_true, Option.ite_none_right_eq_some,
            Option.some.injEq] at h
          obtain ⟨⟨hseen, hcur⟩, rfl⟩ := h
          cases hte : transientEmpty s (truth sample) with
          | true =>
              refine .inl ⟨rfl, ?_⟩
              simp only [trafficStep, applyReportedTrafficCounters, hseen, hinst]
              simp [agentItem, hte]
          | false =>
              refine .inr ⟨rfl, inst, date, rfl, ?_⟩
              simp only [trafficStep, applyReportedTrafficCounters, hseen, hinst]
              simp only [agentItem] at hcur
              simp [agentItem, hcur, hte]
  | setStatus status => simp [appliedSample] at h

/-- An event that applies no sample changes at most the status. -/
theorem trafficStep_unapplied (h : appliedSample truth s.status? e = none) :
    trafficStep truth s e = s ∨ ∃ status, e = .setStatus status := by
  cases e with
  | panel sample date =>
      simp only [appliedSample, TrafficState.status?, Option.map_map,
        Option.map_eq_none_iff] at h
      exact .inl (by simp [trafficStep, applyTrafficCounters, h])
  | agent sample seen reported date =>
      refine .inl ?_
      simp only [trafficStep, applyReportedTrafficCounters]
      cases hinst : s.instance? with
      | none => split <;> simp
      | some inst =>
          simp only [appliedSample, TrafficState.status?, hinst, Option.map_some] at h
          split
          · simp
          · rename_i hseen
            have hcur : shouldApplyTraffic inst.status (agentItem truth sample reported) = false := by
              simp_all
            simp only [agentItem] at hcur ⊢
            simp [hcur]
  | setStatus status => exact .inr ⟨status, rfl⟩

theorem trafficStep_unapplied_counters (h : appliedSample truth s.status? e = none) :
    (trafficStep truth s e).trafficSnapshot = s.trafficSnapshot ∧
      (trafficStep truth s e).used = s.used := by
  rcases trafficStep_unapplied h with h | ⟨status, rfl⟩
  · rw [h]
    exact ⟨rfl, rfl⟩
  · refine ⟨rfl, ?_⟩
    simp only [trafficStep, TrafficState.used]
    cases s.instance? <;> simp

/-- The status follows the status events alone. -/
theorem trafficStep_status (truth : ℕ → Counters) (s : TrafficState) (e : TrafficEvent) :
    (trafficStep truth s e).status? = statusAfter s.status? e := by
  by_cases hset : ∃ status, e = .setStatus status
  · obtain ⟨status, rfl⟩ := hset
    simp only [trafficStep, TrafficState.status?, statusAfter, Option.map_map]
    rfl
  · have hafter : statusAfter s.status? e = s.status? := by
      cases e with
      | setStatus status => exact absurd ⟨status, rfl⟩ hset
      | _ => rfl
    rw [hafter]
    cases happ : appliedSample truth s.status? e with
    | none => rw [(trafficStep_unapplied happ).resolve_right hset]
    | some i =>
        rcases trafficStep_applied happ with ⟨-, h⟩ | ⟨-, inst, date, hinst, h⟩
        · rw [h]
        · rw [h, commitCounters_status hinst]

end Steps

/-! ## A run accounts for the climb of the samples it applies -/

section Climb

/-- Both counters climbing from `last` through the readings. -/
def climb (last : Counters) (readings : List Counters) : ℕ :=
  Ascent.ascent last.rxBytes (readings.map (·.rxBytes))
    + Ascent.ascent last.txBytes (readings.map (·.txBytes))

/-- The readings at some samples, less the empty ones, which never replace a baseline. -/
def readings (truth : ℕ → Counters) (samples : List ℕ) : List Counters :=
  (samples.map truth).filter (· ≠ ⟨0, 0⟩)

variable {truth : ℕ → Counters} {s : TrafficState}

/-- From a stored snapshot, the bytes a run accounts for are the climb of the
applied readings. -/
theorem used_run {last : Counters} (h : s.trafficSnapshot = some last)
    (es : List TrafficEvent) :
    (trafficRun truth s es).used
      = s.used + climb last (readings truth (appliedSamples truth s.status? es)) := by
  induction es generalizing s last with
  | nil => simp [trafficRun, appliedSamples, readings, climb, Ascent.ascent]
  | cons e es ih =>
      cases happ : appliedSample truth s.status? e with
      | none =>
          obtain ⟨hsnap, hused⟩ := trafficStep_unapplied_counters happ
          simp only [trafficRun, appliedSamples, happ, ← trafficStep_status truth,
            Option.toList_none, List.nil_append]
          rw [ih (hsnap.trans h), hused]
      | some i =>
          simp only [trafficRun, appliedSamples, happ, ← trafficStep_status truth,
            Option.toList_some, List.cons_append, List.nil_append]
          rcases trafficStep_applied happ with ⟨hte, hstep⟩ | ⟨hte, inst, date, hinst, hstep⟩
          · -- a transient empty sample: neither side moves
            have hzero : truth i = ⟨0, 0⟩ := ((transientEmpty_iff h).mp hte).1
            rw [hstep, ih h]
            simp [readings, hzero]
          · have hnext : (trafficStep truth s e).trafficSnapshot = some (truth i) := by
              rw [hstep, commitCounters_snapshot]
            have hused := commitCounters_used hinst (truth i) date
            rw [← hstep, h] at hused
            rw [ih hnext, hused]
            by_cases hzero : truth i = ⟨0, 0⟩
            · -- an empty sample over an empty snapshot: the baseline is the same
              have hlast : last = ⟨0, 0⟩ := by
                by_contra hne
                exact absurd ((transientEmpty_iff h).mpr ⟨hzero, hne⟩) (by simp [hte])
              simp [readings, hzero, hlast, incrementOf, calculateIncrement]
            · simp only [readings, List.map_cons, ne_eq, hzero, not_false_eq_true, decide_true,
                List.filter_cons_of_pos, climb, Ascent.ascent, incrementOf,
                calculateIncrement_eq_sub]
              omega

end Climb

/-! ## Against the true growth of the counters -/

section Growth

variable (truth : ℕ → Counters)

/-- The climb over a baseline sample and the samples applied after it. -/
def climbOf : List ℕ → ℕ
  | [] => 0
  | m :: ms => climb (truth m) (readings truth ms)

/-- How far the true counters grew between the baseline and the largest sample. -/
def growthOf : List ℕ → ℕ
  | [] => 0
  | m :: ms =>
      ((truth (Ascent.peak m ms)).rxBytes - (truth m).rxBytes)
        + ((truth (Ascent.peak m ms)).txBytes - (truth m).txBytes)

/-- On neither counter do the readings rise again after they have fallen. -/
def NoLateReading : List ℕ → Prop
  | [] => True
  | m :: ms =>
      Ascent.NoValley ((truth m).rxBytes :: (readings truth ms).map (·.rxBytes)) ∧
      Ascent.NoValley ((truth m).txBytes :: (readings truth ms).map (·.txBytes))

/-- The baseline sample of a run and the samples it applies.  Without a stored
snapshot the first applied sample is the baseline. -/
def countedSamples (baseline : Option ℕ) (s : TrafficState) (es : List TrafficEvent) : List ℕ :=
  baseline.toList ++ appliedSamples truth s.status? es

/-- No byte is counted twice: a run accounts for at most the true growth. -/
def CountedOnce (baseline : Option ℕ) (s : TrafficState) (es : List TrafficEvent) : Prop :=
  (trafficRun truth s es).used ≤ s.used + growthOf truth (countedSamples truth baseline s es)

variable {truth} {s : TrafficState} {es : List TrafficEvent}

/-- Without a snapshot the first applied sample counts nothing and becomes the baseline. -/
theorem used_run_fresh (h : s.trafficSnapshot = none) :
    (trafficRun truth s es).used = s.used + climbOf truth (appliedSamples truth s.status? es) := by
  induction es generalizing s with
  | nil => simp [trafficRun, appliedSamples, climbOf]
  | cons e es ih =>
      cases happ : appliedSample truth s.status? e with
      | none =>
          obtain ⟨hsnap, hused⟩ := trafficStep_unapplied_counters happ
          simp only [trafficRun, appliedSamples, happ, ← trafficStep_status truth,
            Option.toList_none, List.nil_append]
          rw [ih (hsnap.trans h), hused]
      | some i =>
          rcases trafficStep_applied happ with ⟨hte, -⟩ | ⟨-, inst, date, hinst, hstep⟩
          · simp [transientEmpty, h] at hte
          · have hnext : (trafficStep truth s e).trafficSnapshot = some (truth i) := by
              rw [hstep, commitCounters_snapshot]
            have hused := commitCounters_used hinst (truth i) date
            rw [← hstep, h] at hused
            simp only [trafficRun, appliedSamples, happ, ← trafficStep_status truth,
              Option.toList_some, List.cons_append, List.nil_append, climbOf]
            rw [used_run hnext, hused]
            rfl

theorem used_run_countedSamples {baseline : Option ℕ}
    (h : s.trafficSnapshot = baseline.map truth) :
    (trafficRun truth s es).used
      = s.used + climbOf truth (countedSamples truth baseline s es) := by
  cases baseline with
  | none => exact used_run_fresh h
  | some b => exact used_run h es

/-- Of growing counters the highest reading is the one at the largest sample. -/
theorem peak_readings (channel : Counters → ℕ) (hzero : channel ⟨0, 0⟩ = 0)
    (hmono : Monotone fun i => channel (truth i)) (m : ℕ) (ms : List ℕ) :
    Ascent.peak (channel (truth m)) ((readings truth ms).map channel)
      = channel (truth (Ascent.peak m ms)) := by
  apply le_antisymm
  · refine Ascent.peak_le fun c hc => ?_
    rcases List.mem_cons.mp hc with rfl | hc
    · exact hmono (Ascent.le_peak m ms)
    · obtain ⟨r, hr, rfl⟩ := List.mem_map.mp hc
      obtain ⟨i, hi, rfl⟩ := List.mem_map.mp (List.mem_of_mem_filter hr)
      exact hmono (Ascent.le_peak_of_mem (List.mem_cons_of_mem _ hi))
  · by_cases hempty : truth (Ascent.peak m ms) = ⟨0, 0⟩
    · simp [hempty, hzero]
    · rcases List.mem_cons.mp (Ascent.peak_mem m ms) with h | h
      · rw [h]
        exact Ascent.le_peak _ _
      · refine Ascent.le_peak_of_mem (List.mem_cons_of_mem _ (List.mem_map_of_mem ?_))
        exact List.mem_filter.mpr ⟨List.mem_map_of_mem h, by simpa using hempty⟩

/-- The climb stays within the growth exactly when no reading comes late. -/
theorem climbOf_le_growthOf_iff (hrx : Monotone fun i => (truth i).rxBytes)
    (htx : Monotone fun i => (truth i).txBytes) (ms : List ℕ) :
    climbOf truth ms ≤ growthOf truth ms ↔ NoLateReading truth ms := by
  cases ms with
  | nil => simp [climbOf, growthOf, NoLateReading]
  | cons m ms =>
      have hrise (channel : Counters → ℕ) :=
        Ascent.peak_le_add_ascent (channel (truth m)) ((readings truth ms).map channel)
      have hstart (channel : Counters → ℕ) :=
        Ascent.le_peak (channel (truth m)) ((readings truth ms).map channel)
      have hrxUp := hrise (·.rxBytes)
      have htxUp := hrise (·.txBytes)
      have hrxLe := hstart (·.rxBytes)
      have htxLe := hstart (·.txBytes)
      simp only [NoLateReading, ← Ascent.add_ascent_le_peak_iff, climbOf, climb, growthOf]
      rw [← peak_readings (·.rxBytes) rfl hrx m ms,
        ← peak_readings (·.txBytes) rfl htx m ms]
      omega

/-- A run of the two producers counts no byte twice exactly when no applied
reading lies below both an earlier and a later one.  `baseline` is the sample
that the stored snapshot holds, if there is one. -/
theorem countedOnce_iff_noLateReading (truth : ℕ → Counters)
    (hrx : Monotone fun i => (truth i).rxBytes) (htx : Monotone fun i => (truth i).txBytes)
    (baseline : Option ℕ) (s : TrafficState) (hs : s.trafficSnapshot = baseline.map truth)
    (es : List TrafficEvent) :
    CountedOnce truth baseline s es ↔
      NoLateReading truth (countedSamples truth baseline s es) := by
  rw [← climbOf_le_growthOf_iff hrx htx, CountedOnce, used_run_countedSamples hs]
  exact Nat.add_le_add_iff_left

/-- Counters that receive fifty bytes between any two samples. -/
def steadyCounters (i : ℕ) : Counters := ⟨100 + 50 * i, 0⟩

/-- A running instance whose snapshot holds the sample at instant 0. -/
def steadyStart : TrafficState :=
  { instance? := some { status := .running, monthlyTrafficUsed := 0 }
    trafficSnapshot := some (steadyCounters 0)
    userQuota := some 0
    dailyTraffic := [] }

theorem steadyCounters_monotone : Monotone fun i => (steadyCounters i).rxBytes := by
  intro i j h
  simp only [steadyCounters]
  omega

/-- Samples applied in their order are counted once. -/
theorem countedOnce_in_order :
    CountedOnce steadyCounters (some 0) steadyStart
      [.agent 1 .running (some .running) 0, .panel 2 0, .panel 3 0] := by
  refine (countedOnce_iff_noLateReading steadyCounters steadyCounters_monotone
    monotone_const (some 0) steadyStart rfl _).mpr ?_
  have hsamples : countedSamples steadyCounters (some 0) steadyStart
      [.agent 1 .running (some .running) 0, .panel 2 0, .panel 3 0] = [0, 1, 2, 3] := by decide
  rw [hsamples]
  simp [NoLateReading, readings, steadyCounters, Ascent.NoValley, List.triplewise_cons]

/-- The agent took its sample before the panel did and applies it afterwards:
the fifty bytes between the two are counted again by the panel's next sample. -/
theorem late_agent_sample_counted_twice :
    (appliedSamples steadyCounters steadyStart.status?
      [.panel 2 0, .agent 1 .running (some .running) 0, .panel 3 0]).Nodup ∧
    (trafficRun steadyCounters steadyStart
      [.panel 2 0, .agent 1 .running (some .running) 0, .panel 3 0]).used = 200 ∧
    growthOf steadyCounters (countedSamples steadyCounters (some 0) steadyStart
      [.panel 2 0, .agent 1 .running (some .running) 0, .panel 3 0]) = 150 ∧
    ¬ CountedOnce steadyCounters (some 0) steadyStart
      [.panel 2 0, .agent 1 .running (some .running) 0, .panel 3 0] := by
  have hused : (trafficRun steadyCounters steadyStart
      [.panel 2 0, .agent 1 .running (some .running) 0, .panel 3 0]).used = 200 := by decide
  have hgrowth : growthOf steadyCounters (countedSamples steadyCounters (some 0) steadyStart
      [.panel 2 0, .agent 1 .running (some .running) 0, .panel 3 0]) = 150 := by decide
  refine ⟨by decide, hused, hgrowth, ?_⟩
  rw [CountedOnce, hused, hgrowth]
  decide

end Growth

end Incudal
