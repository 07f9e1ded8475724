/-
# `HealthMonitor` — hosts that go offline slowly and come back more slowly

The monitor probes the hosts once a minute.  For each host it keeps, in its
memory, how many probes in a row have failed or succeeded; the status itself is
a column of `hosts`, which other parts of the panel, and the monitors of other
server processes, write as well.

A run works on the rows that it has read at its beginning, four probes at a
time, and ends at the first status that cannot be written, while other probes
of it may still be under way.  The counter of successes goes on while a host is
online and is not set back when another writer takes the host offline, so that
it may count probes from before (`restored_at_once`).
-/
import Incudal.Basic
import Incudal.Lib.Keyed
import Incudal.Lib.Machine

namespace Incudal

/-! ## Probes and their counters -/

inductive HostStatus
  | online
  | offline
  | maintenance
deriving DecidableEq, Repr

/-- `FAILURE_THRESHOLD`. -/
def FAILURE_THRESHOLD : ℕ := 3

/-- `RECOVERY_THRESHOLD`. -/
def RECOVERY_THRESHOLD : ℕ := 5

/-- `CHECK_CONCURRENCY`. -/
def CHECK_CONCURRENCY : ℕ := 4

/-- A row of `hosts`; `certified` says that the paths of the certificate and its key are set. -/
structure MonitoredHost where
  id : ℕ
  status : HostStatus := .offline
  certified : Bool := false
deriving DecidableEq, Repr

/-- The counters of a host. -/
structure ProbeState where
  hostId : ℕ
  failures : ℕ := 0
  successes : ℕ := 0
deriving DecidableEq, Repr

/-- The counters after a probe. -/
def ProbeState.next (state : ProbeState) (ok : Bool) : ProbeState :=
  if ok then { state with failures := 0, successes := state.successes + 1 }
  else { state with failures := min (state.failures + 1) FAILURE_THRESHOLD, successes := 0 }

/-- The status that a probe writes at its end; `host` is the row that the run has read. -/
def ProbeState.verdict (state : ProbeState) (host : MonitoredHost) : Option HostStatus :=
  if host.status = .online ∧ FAILURE_THRESHOLD ≤ state.failures then some .offline
  else if host.status = .offline ∧ RECOVERY_THRESHOLD ≤ state.successes then some .online
  else none

/-- Where a probe is; `state` is the place of the counters that it holds. -/
inductive ProbeStage
  | queued
  | checking (state : ℕ)
  | removingClient (state : ℕ)
  | writing (state : ℕ) (status : HostStatus)
  | done
deriving DecidableEq, Repr

/-- The counters that a probe under way holds. -/
def ProbeStage.state : ProbeStage → Option ℕ
  | .checking state | .removingClient state | .writing state _ => some state
  | .queued | .done => none

structure HostProbe where
  run : ℕ
  host : MonitoredHost
  stage : ProbeStage := .queued
deriving DecidableEq, Repr

/-! ## What has happened -/

/-- A probe with its outcome, or a status that is written over another. -/
inductive HealthRecord
  | checked (hostId : ℕ) (ok : Bool)
  | written (hostId : ℕ) (before after : HostStatus) (monitor : Bool)
deriving DecidableEq, Repr

/-- The outcomes of the probes of a host, the latest first. -/
def checksOf (hostId : ℕ) : List HealthRecord → List Bool
  | [] => []
  | .checked id ok :: history =>
      if id = hostId then ok :: checksOf hostId history else checksOf hostId history
  | .written .. :: history => checksOf hostId history

/-- The outcomes since the host last went offline. -/
def checksSinceOffline (hostId : ℕ) : List HealthRecord → List Bool
  | [] => []
  | .checked id ok :: history =>
      if id = hostId then ok :: checksSinceOffline hostId history
      else checksSinceOffline hostId history
  | .written id before after _ :: history =>
      if id = hostId ∧ before ≠ .offline ∧ after = .offline then []
      else checksSinceOffline hostId history

/-- What the monitor promises of a record, given the history before it. -/
def HealthRecord.Justified (history : List HealthRecord) : HealthRecord → Prop
  | .written hostId _ .offline true =>
      List.replicate FAILURE_THRESHOLD false <+: checksOf hostId history
  | .written hostId _ .online true =>
      List.replicate RECOVERY_THRESHOLD true <+: checksSinceOffline hostId history
  | _ => True

/-- The monitor takes a host offline after three failures in a row, and online after five
successes in a row since the host went offline. -/
def HysteresisKept : List HealthRecord → Prop
  | [] => True
  | record :: history => record.Justified history ∧ HysteresisKept history

/-! ## The monitor -/

structure MonitorWorld where
  hosts : List MonitoredHost := []
  nextId : ℕ
  /-- all counters that were made, and for each host the place of its own -/
  states : List ProbeState := []
  probeStates : List (ℕ × ℕ) := []
  checkRunning : Bool := false
  runs : ℕ := 0
  probes : List HostProbe := []
  history : List HealthRecord := []
deriving DecidableEq, Repr

inductive MonitorEvent
  | runHostHealthCheck
  | startProbe (k : ℕ)
  | answer (k : ℕ) (ok : Bool)
  | clientRemoved (k : ℕ)
  | write (k : ℕ) (ok : Bool)
  | runEnds
  /-- another part of the panel, or another process -/
  | updateHostStatus (hostId : ℕ) (status : HostStatus)
  | updateHost (hostId : ℕ) (certified : Bool)
  | createHost (certified : Bool)
  | deleteHost (hostId : ℕ)
  | restart
deriving DecidableEq, Repr

namespace MonitorWorld

variable (w : MonitorWorld)

def goto (k : ℕ) (stage : ProbeStage) : MonitorWorld :=
  { w with probes := w.probes.modify k fun probe => { probe with stage } }

/-- `getProbeState`: the counters of a host, made if it has none. -/
def getProbeState (hostId : ℕ) : MonitorWorld × ℕ :=
  match Keyed.lookup Prod.fst hostId w.probeStates with
  | some entry => (w, entry.2)
  | none =>
      ({ w with
          states := w.states ++ [{ hostId := hostId }]
          probeStates := w.probeStates ++ [(hostId, w.states.length)] },
        w.states.length)

/-- The outcome of a probe is counted. -/
def check (hostId state : ℕ) (ok : Bool) : MonitorWorld :=
  { w with
      states := w.states.modify state (·.next ok)
      history := .checked hostId ok :: w.history }

/-- The end of a probe: a status to be written, or nothing. -/
def decide (k : ℕ) (host : MonitoredHost) (state : ℕ) : MonitorWorld :=
  match w.states[state]?.bind (·.verdict host) with
  | some status => w.goto k (.writing state status)
  | none => w.goto k .done

def setStatus (hostId : ℕ) (status : HostStatus) (monitor : Bool) : Option MonitorWorld :=
  (Keyed.lookup MonitoredHost.id hostId w.hosts).map fun host =>
    { w with
        hosts := Keyed.modify MonitoredHost.id hostId (fun host => { host with status }) w.hosts
        history := .written hostId host.status status monitor :: w.history }

/-- A run begins: counters of hosts that are gone or in maintenance are dropped. -/
def runHostHealthCheck : MonitorWorld :=
  let eligible := w.hosts.filter (·.status ≠ .maintenance)
  { w with
      checkRunning := true
      runs := w.runs + 1
      probeStates := w.probeStates.filter fun entry => eligible.any (·.id == entry.1)
      probes := w.probes ++ eligible.map fun host => { run := w.runs + 1, host } }

/-- A queued probe may start: those before it have, and fewer than four are under way. -/
def mayStart (k : ℕ) (probe : HostProbe) : Bool :=
  (w.probes.take k).all (fun p => p.run != probe.run || p.stage != .queued) &&
    (w.probes.filter fun p => p.run == probe.run && p.stage.state.isSome).length < CHECK_CONCURRENCY

/-- A probe starts; without a certificate it has failed. -/
def startProbe (k : ℕ) (host : MonitoredHost) : MonitorWorld :=
  let (w, state) := w.getProbeState host.id
  let w := w.goto k (.checking state)
  if host.certified then w else (w.check host.id state false).decide k host state

/-- An answer, or an error in its place. -/
def answer (k : ℕ) (host : MonitoredHost) (state : ℕ) (ok : Bool) : MonitorWorld :=
  let w := w.check host.id state ok
  if ok then w.decide k host state else w.goto k (.removingClient state)

/-- The status is written, or the write fails and with it the run that is going on. -/
def write (k : ℕ) (probe : HostProbe) (status : HostStatus) (ok : Bool) : MonitorWorld :=
  match if ok then w.setStatus probe.host.id status true else none with
  | some w => w.goto k .done
  | none =>
      { w.goto k .done with checkRunning := w.checkRunning && probe.run != w.runs }

end MonitorWorld

/-- One step of the monitor, or of something beside it. -/
def monitorStep (w : MonitorWorld) : MonitorEvent → Option MonitorWorld
  | .runHostHealthCheck => some (if w.checkRunning then w else w.runHostHealthCheck)
  | .startProbe k =>
      match w.probes[k]? with
      | some probe =>
          if probe.stage = .queued ∧ w.mayStart k probe then some (w.startProbe k probe.host)
          else none
      | none => none
  | .answer k ok =>
      match w.probes[k]? with
      | some { host, stage := .checking state, .. } => some (w.answer k host state ok)
      | _ => none
  | .clientRemoved k =>
      match w.probes[k]? with
      | some { host, stage := .removingClient state, .. } => some (w.decide k host state)
      | _ => none
  | .write k ok =>
      match w.probes[k]? with
      | some { run, host, stage := .writing state status } =>
          some (w.write k { run, host, stage := .writing state status } status ok)
      | _ => none
  | .runEnds =>
      if w.probes.all fun probe => probe.run != w.runs || probe.stage == .done then
        some { w with checkRunning := false }
      else none
  | .updateHostStatus hostId status => w.setStatus hostId status false
  | .updateHost hostId certified =>
      some { w with
        hosts := Keyed.modify MonitoredHost.id hostId (fun host => { host with certified }) w.hosts }
  | .createHost certified =>
      some { w with hosts := w.hosts ++ [{ id := w.nextId, certified }], nextId := w.nextId + 1 }
  | .deleteHost hostId => some { w with hosts := Keyed.erase MonitoredHost.id hostId w.hosts }
  | .restart =>
      some { w with states := [], probeStates := [], checkRunning := false, probes := [] }

/-! ## When the counters are of the time since the host went offline -/

namespace MonitorWorld

variable (w : MonitorWorld)

/-- The places of the counters that are a host's own or are held by a probe under way. -/
def held : List ℕ := w.probeStates.map Prod.snd ++ w.probes.filterMap (·.stage.state)

/-- A success is counted for the host. -/
def countsSuccess (hostId : ℕ) : Bool :=
  w.held.any fun state => w.states[state]?.any fun state =>
    state.hostId == hostId && state.successes != 0

/-- A probe of the host is under way. -/
def underWay (hostId : ℕ) : Bool :=
  w.probes.any fun probe => probe.host.id == hostId && probe.stage.state.isSome

end MonitorWorld

/-- A host that is not offline yet. -/
def MonitorWorld.goesOffline (w : MonitorWorld) (hostId : ℕ) : Bool :=
  (Keyed.lookup MonitoredHost.id hostId w.hosts).any (·.status != .offline)

/-- Another writer takes a host offline only when no success is counted for it, and no probe of a
host starts while one is under way. -/
def countersFresh (w : MonitorWorld) : MonitorEvent → Bool
  | .updateHostStatus hostId .offline => !(w.goesOffline hostId && w.countsSuccess hostId)
  | .startProbe k => w.probes[k]?.all fun probe => !w.underWay probe.host.id
  | _ => true

/-! ## The invariant -/

/-- The counters are those of the latest probes, and the successes came since the host went
offline. -/
structure ProbeState.Honest (history : List HealthRecord) (state : ProbeState) : Prop where
  failures : List.replicate state.failures false <+: checksOf state.hostId history
  successes : List.replicate state.successes true <+: checksSinceOffline state.hostId history
  one : state.failures = 0 ∨ state.successes = 0

section Counters

variable {history : List HealthRecord} {state : ProbeState} {host : MonitoredHost} {ok : Bool}
  {hostId : ℕ} {before status : HostStatus} {monitor : Bool}

@[simp] theorem ProbeState.next_hostId : (state.next ok).hostId = state.hostId := by
  cases ok <;> rfl

theorem ProbeState.Honest.new (hostId : ℕ) : ProbeState.Honest history { hostId := hostId } :=
  ⟨List.nil_prefix, List.nil_prefix, .inl rfl⟩

theorem ProbeState.Honest.next (h : state.Honest history) :
    (state.next ok).Honest (.checked state.hostId ok :: history) := by
  cases ok with
  | true =>
      refine ⟨List.nil_prefix, ?_, .inl rfl⟩
      simpa [ProbeState.next, checksSinceOffline, List.replicate_succ] using h.successes
  | false =>
      refine ⟨?_, List.nil_prefix, .inr rfl⟩
      have hprefix : List.replicate (state.failures + 1) false <+:
          checksOf state.hostId (.checked state.hostId false :: history) := by
        simpa [checksOf, List.replicate_succ] using h.failures
      refine .trans ?_ hprefix
      exact List.prefix_replicate_iff.mpr ⟨by simp [ProbeState.next], by simp⟩

theorem ProbeState.Honest.checked (h : state.Honest history) (hne : hostId ≠ state.hostId) :
    state.Honest (.checked hostId ok :: history) where
  failures := by simpa [checksOf, hne] using h.failures
  successes := by simpa [checksSinceOffline, hne] using h.successes
  one := h.one

theorem ProbeState.Honest.written (h : state.Honest history)
    (hfresh : before ≠ .offline → status = .offline → state.hostId = hostId → state.successes = 0) :
    state.Honest (.written hostId before status monitor :: history) where
  failures := h.failures
  successes := by
    by_cases hoffline : hostId = state.hostId ∧ before ≠ .offline ∧ status = .offline
    · rw [hfresh hoffline.2.1 hoffline.2.2 hoffline.1.symm]
      exact List.nil_prefix
    · simpa only [checksSinceOffline, if_neg hoffline] using h.successes
  one := h.one

/-- A verdict is justified by counters that are honest. -/
theorem ProbeState.Honest.justified (h : state.Honest history) (hid : state.hostId = host.id)
    (hverdict : state.verdict host = some status) :
    (HealthRecord.written host.id before status true).Justified history := by
  simp only [ProbeState.verdict] at hverdict
  split at hverdict
  · rename_i hoffline
    obtain rfl := Option.some.inj hverdict
    refine .trans ?_ (hid ▸ h.failures)
    exact List.prefix_replicate_iff.mpr ⟨by simpa using hoffline.2, by simp⟩
  · split at hverdict
    · rename_i honline
      obtain rfl := Option.some.inj hverdict
      refine .trans ?_ (hid ▸ h.successes)
      exact List.prefix_replicate_iff.mpr ⟨by simpa using honline.2, by simp⟩
    · cases hverdict

/-- A host that the monitor takes offline has no success counted. -/
theorem ProbeState.Honest.successes_eq_zero (h : state.Honest history)
    (hverdict : state.verdict host = some .offline) : state.successes = 0 := by
  refine h.one.resolve_left fun hzero => ?_
  simp [ProbeState.verdict, hzero, FAILURE_THRESHOLD] at hverdict

end Counters

/-- The counters in use are honest; a probe under way is the only one of its host, and the counters
it holds are the host's own unless they were dropped; what is to be written is their verdict. -/
structure MonitorInv (w : MonitorWorld) : Prop where
  honest : ∀ r ∈ w.held, ∃ s : ProbeState, w.states[r]? = some s ∧ s.Honest w.history
  keys : (w.probeStates.map Prod.fst).Nodup
  owned : ∀ entry ∈ w.probeStates, ∀ s : ProbeState,
    w.states[entry.2]? = some s → s.hostId = entry.1
  holds : ∀ (k : ℕ) (p : HostProbe) (r : ℕ), w.probes[k]? = some p → p.stage.state = some r →
    ∀ s : ProbeState, w.states[r]? = some s → s.hostId = p.host.id
  alone : ∀ (k : ℕ) (p : HostProbe) (k' : ℕ) (p' : HostProbe),
    w.probes[k]? = some p → w.probes[k']? = some p' → p.stage.state.isSome → p'.stage.state.isSome → p.host.id = p'.host.id → k = k'
  own : ∀ (k : ℕ) (p : HostProbe) (r : ℕ), w.probes[k]? = some p → p.stage.state = some r →
    ∀ entry ∈ w.probeStates, entry.1 = p.host.id → entry.2 = r
  decided : ∀ (k : ℕ) (p : HostProbe) (r : ℕ) (status : HostStatus),
    w.probes[k]? = some p → p.stage = .writing r status →
    ∀ s : ProbeState, w.states[r]? = some s → s.verdict p.host = some status
  kept : HysteresisKept w.history

section Invariant

variable {w w' : MonitorWorld} {event : MonitorEvent} {k r : ℕ} {p : HostProbe} {ok : Bool}

theorem mem_held : r ∈ w.held ↔ (∃ entry ∈ w.probeStates, entry.2 = r) ∨
    ∃ (k : ℕ) (p : HostProbe), w.probes[k]? = some p ∧ p.stage.state = some r := by
  rw [MonitorWorld.held, List.mem_append, List.mem_map, List.mem_filterMap]
  refine or_congr_right ⟨?_, ?_⟩
  · rintro ⟨p, hp, hr⟩
    obtain ⟨k, hk⟩ := List.mem_iff_getElem?.mp hp
    exact ⟨k, p, hk, hr⟩
  · rintro ⟨k, p, hk, hr⟩
    exact ⟨p, List.mem_of_getElem? hk, hr⟩

/-- Of the counters in use, the host of a probe under way has those that the probe holds. -/
theorem MonitorInv.eq_of_hostId {r' : ℕ} {s' : ProbeState} (h : MonitorInv w)
    (hk : w.probes[k]? = some p) (hr : p.stage.state = some r) (hr' : r' ∈ w.held)
    (hs' : w.states[r']? = some s') (hid : s'.hostId = p.host.id) : r' = r := by
  rcases mem_held.mp hr' with ⟨entry, hentry, rfl⟩ | ⟨k', p', hk', hstate⟩
  · exact h.own k p r hk hr entry hentry ((h.owned entry hentry s' hs').symm.trans hid)
  · have hhost : p'.host.id = p.host.id := (h.holds k' p' r' hk' hstate s' hs').symm.trans hid
    obtain rfl := h.alone k' p' k p hk' hk (by simp [hstate]) (by simp [hr]) hhost
    obtain rfl := Option.some.inj (hk'.symm.trans hk)
    exact Option.some.inj (hstate.symm.trans hr)

/-- The rows of `hosts` and whether a run goes on do not matter. -/
theorem MonitorInv.of_eq (h : MonitorInv w) (hstates : w'.states = w.states)
    (hown : w'.probeStates = w.probeStates) (hprobes : w'.probes = w.probes)
    (hhistory : w'.history = w.history) : MonitorInv w' := by
  have hheld : w'.held = w.held := by rw [MonitorWorld.held, MonitorWorld.held, hown, hprobes]
  constructor
  case honest => rw [hheld, hstates, hhistory]; exact h.honest
  case keys => rw [hown]; exact h.keys
  case owned => rw [hown, hstates]; exact h.owned
  case holds => rw [hprobes, hstates]; exact h.holds
  case alone => rw [hprobes]; exact h.alone
  case own => rw [hprobes, hown]; exact h.own
  case decided => rw [hprobes, hstates]; exact h.decided
  case kept => rw [hhistory]; exact h.kept

theorem of_getElem?_goto {stage : ProbeStage} {k' : ℕ} {p' : HostProbe}
    (h : (w.goto k stage).probes[k']? = some p') :
    ∃ p, w.probes[k']? = some p ∧ p' = if k = k' then { p with stage } else p := by
  rw [MonitorWorld.goto, List.getElem?_modify] at h
  obtain ⟨p, hp, rfl⟩ := Option.map_eq_some_iff.mp h
  exact ⟨p, hp, rfl⟩

/-- A probe goes on with the counters that it holds, or lets them go. -/
theorem MonitorInv.goto {stage : ProbeStage} (h : MonitorInv w) (hk : w.probes[k]? = some p)
    (hstate : ∀ r, stage.state = some r → p.stage.state = some r)
    (hdecided : ∀ r status, stage = .writing r status →
      ∀ s, w.states[r]? = some s → s.verdict p.host = some status) :
    MonitorInv (w.goto k stage) := by
  -- what a probe holds afterwards, it held before
  have hbefore : ∀ (k' : ℕ) (p' : HostProbe) (r : ℕ), (w.goto k stage).probes[k']? = some p' →
      p'.stage.state = some r → ∃ q : HostProbe, w.probes[k']? = some q ∧ q.stage.state = some r ∧ q.host = p'.host := by
    intro k' p' r hp' hr
    obtain ⟨q, hq, rfl⟩ := of_getElem?_goto hp'
    split at hr
    · rename_i heq
      obtain rfl := heq
      obtain rfl := Option.some.inj (hk.symm.trans hq)
      exact ⟨p, hq, hstate r hr, by rw [if_pos rfl]⟩
    · rename_i hne
      exact ⟨q, hq, hr, by rw [if_neg hne]⟩
  constructor
  case honest =>
    intro r hr
    refine h.honest r (mem_held.mpr ?_)
    rcases mem_held.mp hr with hentry | ⟨k', p', hk', hr'⟩
    · exact .inl hentry
    · obtain ⟨q, hq, hqr, -⟩ := hbefore k' p' r hk' hr'
      exact .inr ⟨k', q, hq, hqr⟩
  case keys => exact h.keys
  case owned => exact h.owned
  case holds =>
    intro k' p' r hp' hr s hs
    obtain ⟨q, hq, hqr, hhost⟩ := hbefore k' p' r hp' hr
    exact hhost ▸ h.holds k' q r hq hqr s hs
  case alone =>
    intro k₁ p₁ k₂ p₂ hp₁ hp₂ hs₁ hs₂ hhost
    obtain ⟨r₁, hr₁⟩ := Option.isSome_iff_exists.mp hs₁
    obtain ⟨r₂, hr₂⟩ := Option.isSome_iff_exists.mp hs₂
    obtain ⟨q₁, hq₁, hqr₁, hh₁⟩ := hbefore k₁ p₁ r₁ hp₁ hr₁
    obtain ⟨q₂, hq₂, hqr₂, hh₂⟩ := hbefore k₂ p₂ r₂ hp₂ hr₂
    exact h.alone k₁ q₁ k₂ q₂ hq₁ hq₂ (by simp [hqr₁]) (by simp [hqr₂]) (by rw [hh₁, hh₂, hhost])
  case own =>
    intro k' p' r hp' hr entry hentry hid
    obtain ⟨q, hq, hqr, hhost⟩ := hbefore k' p' r hp' hr
    exact h.own k' q r hq hqr entry hentry (hhost ▸ hid)
  case decided =>
    intro k' p' r status hp' hstage s hs
    obtain ⟨q, hq, rfl⟩ := of_getElem?_goto hp'
    split at hstage
    · rename_i heq
      obtain rfl := heq
      obtain rfl := Option.some.inj (hk.symm.trans hq)
      rw [if_pos rfl]
      exact hdecided r status hstage s hs
    · rename_i hne
      rw [if_neg hne]
      exact h.decided k' q r status hq hstage s hs
  case kept => exact h.kept

/-- The verdict on the counters that a probe holds. -/
theorem MonitorInv.decide (h : MonitorInv w) (hk : w.probes[k]? = some p)
    (hr : p.stage.state = some r) : MonitorInv (w.decide k p.host r) := by
  unfold MonitorWorld.decide
  split
  · rename_i status hverdict
    refine h.goto hk (fun r' hr' => hr.trans hr') fun r' status' hstage s hs => ?_
    obtain ⟨rfl, rfl⟩ := ProbeStage.writing.inj hstage
    simpa [hs] using hverdict
  · exact h.goto hk (fun r' hr' => by cases hr') fun r' status' hstage => by cases hstage

theorem getElem?_check {hostId r' : ℕ} : (w.check hostId r ok).states[r']? =
    if r = r' then w.states[r']?.map (·.next ok) else w.states[r']? := by
  rw [MonitorWorld.check, List.getElem?_modify]
  split <;> simp

/-- An outcome is counted where the host's counters are. -/
theorem MonitorInv.check (h : MonitorInv w) (hk : w.probes[k]? = some p)
    (hstage : p.stage = .checking r) : MonitorInv (w.check p.host.id r ok) := by
  have hstate : p.stage.state = some r := by rw [hstage]; rfl
  have hheld : r ∈ w.held := mem_held.mpr (.inr ⟨k, p, hk, hstate⟩)
  have hids : ∀ {r' : ℕ} {s' : ProbeState}, (w.check p.host.id r ok).states[r']? = some s' →
      ∃ s : ProbeState, w.states[r']? = some s ∧ s.hostId = s'.hostId := by
    intro r' s' hs'
    rw [getElem?_check] at hs'
    split at hs'
    · obtain ⟨s, hs, rfl⟩ := Option.map_eq_some_iff.mp hs'
      exact ⟨s, hs, by simp⟩
    · exact ⟨s', hs', rfl⟩
  constructor
  case honest =>
    intro r' hr'
    obtain ⟨s, hs, hhonest⟩ := h.honest r' hr'
    by_cases heq : r = r'
    · obtain rfl := heq
      refine ⟨s.next ok, by rw [getElem?_check, if_pos rfl, hs]; rfl, ?_⟩
      have hid : s.hostId = p.host.id := h.holds k p r hk hstate s hs
      exact hid ▸ hhonest.next
    · refine ⟨s, by rw [getElem?_check, if_neg heq, hs], hhonest.checked fun hid => heq ?_⟩
      exact (h.eq_of_hostId hk hstate hr' hs hid.symm).symm
  case keys => exact h.keys
  case owned =>
    intro entry hentry s' hs'
    obtain ⟨s, hs, hid⟩ := hids hs'
    exact hid ▸ h.owned entry hentry s hs
  case holds =>
    intro k' p' r' hk' hr' s' hs'
    obtain ⟨s, hs, hid⟩ := hids hs'
    exact hid ▸ h.holds k' p' r' hk' hr' s hs
  case alone => exact h.alone
  case own => exact h.own
  case decided =>
    intro k' p' r' status hk' hstage' s' hs'
    have hstate' : p'.stage.state = some r' := by rw [hstage']; rfl
    have hne : r ≠ r' := by
      rintro rfl
      obtain ⟨s, hs, -⟩ := h.honest r hheld
      have hhost := (h.holds k p r hk hstate s hs).symm.trans (h.holds k' p' r hk' hstate' s hs)
      obtain rfl := h.alone k p k' p' hk hk' (by simp [hstate]) (by simp [hstate']) hhost
      obtain rfl := Option.some.inj (hk.symm.trans hk')
      rw [hstage] at hstage'
      cases hstage'
    rw [getElem?_check, if_neg hne] at hs'
    exact h.decided k' p' r' status hk' hstage' s' hs'
  case kept => exact ⟨trivial, h.kept⟩

theorem not_underWay_iff {hostId : ℕ} : w.underWay hostId = false ↔
    ∀ (k : ℕ) (p : HostProbe), w.probes[k]? = some p → p.host.id = hostId →
      p.stage.state.isSome = false := by
  simp only [MonitorWorld.underWay, List.any_eq_false, Bool.and_eq_true, beq_iff_eq, not_and,
    Bool.not_eq_true]
  constructor
  · exact fun h k p hk => h p (List.mem_of_getElem? hk)
  · intro h p hp
    obtain ⟨k, hk⟩ := List.mem_iff_getElem?.mp hp
    exact h k p hk

/-- Counters for a host of which no probe is under way. -/
theorem MonitorInv.getProbeState {hostId : ℕ} (h : MonitorInv w)
    (hfree : w.underWay hostId = false) : MonitorInv (w.getProbeState hostId).1 ∧
      (hostId, (w.getProbeState hostId).2) ∈ (w.getProbeState hostId).1.probeStates ∧
      (w.getProbeState hostId).1.probes = w.probes := by
  cases hlookup : Keyed.lookup Prod.fst hostId w.probeStates with
  | some entry =>
      obtain ⟨hentry, rfl⟩ := Keyed.mem_of_lookup hlookup
      simp only [MonitorWorld.getProbeState, hlookup]
      exact ⟨h, hentry, trivial⟩
  | none =>
      have hnew : ∀ entry ∈ w.probeStates, entry.1 ≠ hostId := Keyed.lookup_eq_none_iff.mp hlookup
      simp only [MonitorWorld.getProbeState, hlookup]
      refine ⟨?_, List.mem_append_right _ (List.mem_singleton_self _), trivial⟩
      -- counters in use stay where they are
      have hkept : ∀ {r : ℕ} {s : ProbeState}, w.states[r]? = some s →
          (w.states ++ [{ hostId := hostId }])[r]? = some s :=
        fun hs => List.getElem?_append_left (List.getElem?_eq_some_iff.mp hs).1 ▸ hs
      have hback : ∀ r ∈ w.held, ∀ s : ProbeState, (w.states ++ [{ hostId := hostId }])[r]? = some s →
          w.states[r]? = some s := by
        intro r hr s hs
        obtain ⟨s', hs', -⟩ := h.honest r hr
        rwa [hs', ← hkept hs']
      have hholds : ∀ {k : ℕ} {p : HostProbe} {r : ℕ}, w.probes[k]? = some p →
          p.stage.state = some r → r ∈ w.held := fun hk hr => mem_held.mpr (.inr ⟨_, _, hk, hr⟩)
      have hlast : (w.states ++ [{ hostId := hostId }])[w.states.length]? = some { hostId := hostId } := by simp
      constructor
      case honest =>
        intro r hr
        have hcases : r ∈ w.held ∨ r = w.states.length := by
          rcases mem_held.mp hr with ⟨entry, hentry, rfl⟩ | ⟨k, p, hk, hstate⟩
          · rcases List.mem_append.mp hentry with hentry | hentry
            · exact .inl (mem_held.mpr (.inl ⟨entry, hentry, rfl⟩))
            · exact .inr (congrArg Prod.snd (List.mem_singleton.mp hentry))
          · exact .inl (hholds hk hstate)
        rcases hcases with hheld | rfl
        · obtain ⟨s, hs, hhonest⟩ := h.honest r hheld
          exact ⟨s, hkept hs, hhonest⟩
        · exact ⟨_, hlast, .new hostId⟩
      case keys => exact Keyed.nodup_append_singleton h.keys hnew
      case owned =>
        intro entry hentry s hs
        rcases List.mem_append.mp hentry with hentry | hentry
        · exact h.owned entry hentry s (hback _ (mem_held.mpr (.inl ⟨entry, hentry, rfl⟩)) s hs)
        · obtain rfl := List.mem_singleton.mp hentry
          obtain rfl := Option.some.inj (hlast.symm.trans hs)
          rfl
      case holds => exact fun k p r hk hr s hs => h.holds k p r hk hr s (hback r (hholds hk hr) s hs)
      case alone => exact h.alone
      case own =>
        intro k p r hk hr entry hentry hid
        rcases List.mem_append.mp hentry with hentry | hentry
        · exact h.own k p r hk hr entry hentry hid
        · obtain rfl := List.mem_singleton.mp hentry
          have := not_underWay_iff.mp hfree k p hk hid.symm
          simp [hr] at this
      case decided =>
        intro k p r status hk hstage s hs
        exact h.decided k p r status hk hstage s
          (hback r (hholds hk (by rw [hstage]; rfl)) s hs)
      case kept => exact h.kept

/-- A probe starts with the host's own counters. -/
theorem MonitorInv.hold (h : MonitorInv w) (hk : w.probes[k]? = some p)
    (hfree : w.underWay p.host.id = false) (hown : (p.host.id, r) ∈ w.probeStates) :
    MonitorInv (w.goto k (.checking r)) := by
  have hbefore : ∀ (k' : ℕ) (p' : HostProbe) (r' : ℕ),
      (w.goto k (.checking r)).probes[k']? = some p' → p'.stage.state = some r' →
      p'.host = p.host ∧ k' = k ∧ r' = r ∨
        w.probes[k']? = some p' ∧ p'.host.id ≠ p.host.id := by
    intro k' p' r' hp' hr'
    obtain ⟨q, hq, rfl⟩ := of_getElem?_goto hp'
    split at hr'
    · rename_i heq
      obtain rfl := heq
      obtain rfl := Option.some.inj (hk.symm.trans hq)
      rw [if_pos rfl]
      exact .inl ⟨rfl, rfl, (Option.some.inj hr').symm⟩
    · rename_i hne
      rw [if_neg hne]
      refine .inr ⟨hq, fun hid => ?_⟩
      have := not_underWay_iff.mp hfree k' q hq hid
      simp [hr'] at this
  constructor
  case honest =>
    intro r' hr'
    refine h.honest r' (mem_held.mpr ?_)
    rcases mem_held.mp hr' with hentry | ⟨k', p', hk', hstate⟩
    · exact .inl hentry
    · rcases hbefore k' p' r' hk' hstate with ⟨-, -, rfl⟩ | ⟨hq, -⟩
      · exact .inl ⟨_, hown, rfl⟩
      · exact .inr ⟨k', p', hq, hstate⟩
  case keys => exact h.keys
  case owned => exact h.owned
  case holds =>
    intro k' p' r' hk' hr' s hs
    rcases hbefore k' p' r' hk' hr' with ⟨hhost, -, rfl⟩ | ⟨hq, -⟩
    · exact hhost ▸ h.owned _ hown s hs
    · exact h.holds k' p' r' hq hr' s hs
  case alone =>
    intro k₁ p₁ k₂ p₂ hp₁ hp₂ hs₁ hs₂ hhost
    obtain ⟨r₁, hr₁⟩ := Option.isSome_iff_exists.mp hs₁
    obtain ⟨r₂, hr₂⟩ := Option.isSome_iff_exists.mp hs₂
    rcases hbefore k₁ p₁ r₁ hp₁ hr₁ with ⟨hh₁, rfl, -⟩ | ⟨hq₁, hne₁⟩ <;>
      rcases hbefore k₂ p₂ r₂ hp₂ hr₂ with ⟨hh₂, rfl, -⟩ | ⟨hq₂, hne₂⟩
    · rfl
    · exact absurd (hhost.symm.trans (congrArg MonitoredHost.id hh₁)) hne₂
    · exact absurd (hhost.trans (congrArg MonitoredHost.id hh₂)) hne₁
    · exact h.alone k₁ p₁ k₂ p₂ hq₁ hq₂ hs₁ hs₂ hhost
  case own =>
    intro k' p' r' hk' hr' entry hentry hid
    rcases hbefore k' p' r' hk' hr' with ⟨hhost, -, rfl⟩ | ⟨hq, -⟩
    · have hsame : entry.1 = (p.host.id, r').1 := hid.trans (congrArg MonitoredHost.id hhost)
      exact congrArg Prod.snd (List.inj_on_of_nodup_map h.keys hentry hown hsame)
    · exact h.own k' p' r' hq hr' entry hentry hid
  case decided =>
    intro k' p' r' status hk' hstage s hs
    obtain ⟨q, hq, rfl⟩ := of_getElem?_goto hk'
    split at hstage
    · cases hstage
    · rename_i hne
      rw [if_neg hne]
      exact h.decided k' q r' status hq hstage s hs
  case kept => exact h.kept

/-- A status that is written, with what it says about counters. -/
theorem MonitorInv.setStatus {hostId : ℕ} {status : HostStatus} {monitor : Bool} (h : MonitorInv w)
    (hs : w.setStatus hostId status monitor = some w')
    (hfresh : w.goesOffline hostId = true → status = .offline → ∀ r ∈ w.held, ∀ s : ProbeState,
      w.states[r]? = some s → s.hostId = hostId → s.successes = 0)
    (hjustified : ∀ before,
      (HealthRecord.written hostId before status monitor).Justified w.history) : MonitorInv w' := by
  rw [MonitorWorld.setStatus] at hs
  obtain ⟨host, hlookup, rfl⟩ := Option.map_eq_some_iff.mp hs
  constructor
  case honest =>
    intro r hr
    obtain ⟨s, hs', hhonest⟩ := h.honest r hr
    refine ⟨s, hs', hhonest.written fun hbefore hoffline hid => ?_⟩
    refine hfresh ?_ hoffline r hr s hs' hid
    simpa [MonitorWorld.goesOffline, hlookup] using hbefore
  case keys => exact h.keys
  case owned => exact h.owned
  case holds => exact h.holds
  case alone => exact h.alone
  case own => exact h.own
  case decided => exact h.decided
  case kept => exact ⟨hjustified _, h.kept⟩

/-- A run begins: counters are dropped, and the new probes hold none. -/
theorem MonitorInv.runHostHealthCheck (h : MonitorInv w) : MonitorInv w.runHostHealthCheck := by
  have hbefore : ∀ (k : ℕ) (p : HostProbe), w.runHostHealthCheck.probes[k]? = some p →
      p.stage.state.isSome → w.probes[k]? = some p := by
    intro k p hk hstate
    simp only [MonitorWorld.runHostHealthCheck] at hk
    rw [List.getElem?_append] at hk
    split at hk
    · exact hk
    · obtain ⟨host, -, rfl⟩ := List.mem_map.mp (List.mem_of_getElem? hk)
      cases hstate
  have hentries : ∀ entry ∈ w.runHostHealthCheck.probeStates, entry ∈ w.probeStates :=
    fun entry hentry => List.mem_of_mem_filter hentry
  constructor
  case honest =>
    intro r hr
    refine h.honest r (mem_held.mpr ?_)
    rcases mem_held.mp hr with ⟨entry, hentry, rfl⟩ | ⟨k, p, hk, hstate⟩
    · exact .inl ⟨entry, hentries entry hentry, rfl⟩
    · exact .inr ⟨k, p, hbefore k p hk (by simp [hstate]), hstate⟩
  case keys => exact h.keys.sublist (List.Sublist.map _ List.filter_sublist)
  case owned => exact fun entry hentry => h.owned entry (hentries entry hentry)
  case holds => exact fun k p r hk hr => h.holds k p r (hbefore k p hk (by simp [hr])) hr
  case alone =>
    exact fun k p k' p' hk hk' hs hs' =>
      h.alone k p k' p' (hbefore k p hk hs) (hbefore k' p' hk' hs') hs hs'
  case own =>
    exact fun k p r hk hr entry hentry =>
      h.own k p r (hbefore k p hk (by simp [hr])) hr entry (hentries entry hentry)
  case decided =>
    exact fun k p r status hk hstage =>
      h.decided k p r status (hbefore k p hk (by rw [hstage]; rfl)) hstage
  case kept => exact h.kept

/-- A queued probe starts. -/
theorem MonitorInv.startProbe (h : MonitorInv w) (hk : w.probes[k]? = some p)
    (hfree : w.underWay p.host.id = false) : MonitorInv (w.startProbe k p.host) := by
  obtain ⟨hinv, hown, hprobes⟩ := h.getProbeState hfree
  have hk' : (w.getProbeState p.host.id).1.probes[k]? = some p := by rw [hprobes, hk]
  have hfree' : (w.getProbeState p.host.id).1.underWay p.host.id = false := by
    rw [MonitorWorld.underWay, hprobes]
    exact hfree
  have hheld := hinv.hold hk' hfree' hown
  have hchecking : ((w.getProbeState p.host.id).1.goto k
      (.checking (w.getProbeState p.host.id).2)).probes[k]? =
        some { p with stage := .checking (w.getProbeState p.host.id).2 } := by
    simp [MonitorWorld.goto, hk']
  simp only [MonitorWorld.startProbe]
  split
  · exact hheld
  · let q : HostProbe := { p with stage := .checking (w.getProbeState p.host.id).2 }
    have hchecked : MonitorInv (MonitorWorld.check _ q.host.id _ false) := hheld.check hchecking rfl
    exact MonitorInv.decide hchecked (p := q) hchecking rfl

/-- A probe has its outcome. -/
theorem MonitorInv.answer (h : MonitorInv w) (hk : w.probes[k]? = some p)
    (hstage : p.stage = .checking r) : MonitorInv (w.answer k p.host r ok) := by
  have hstate : p.stage.state = some r := by rw [hstage]; rfl
  have hchecked : MonitorInv (w.check p.host.id r ok) := h.check hk hstage
  simp only [MonitorWorld.answer]
  split
  · exact hchecked.decide hk hstate
  · exact hchecked.goto hk (fun r' hr' => hstate.trans hr') fun r' status hstage' => by cases hstage'

/-- A verdict is written, or not. -/
theorem MonitorInv.write {status : HostStatus} (h : MonitorInv w) (hk : w.probes[k]? = some p)
    (hstage : p.stage = .writing r status) : MonitorInv (w.write k p status ok) := by
  have hstate : p.stage.state = some r := by rw [hstage]; rfl
  have hheld : r ∈ w.held := mem_held.mpr (.inr ⟨k, p, hk, hstate⟩)
  obtain ⟨s, hs, hhonest⟩ := h.honest r hheld
  have hverdict := h.decided k p r status hk hstage s hs
  have hid := h.holds k p r hk hstate s hs
  unfold MonitorWorld.write
  split
  · rename_i w' hwrite
    have hset : w.setStatus p.host.id status true = some w' := by
      cases ok with
      | true => exact hwrite
      | false => cases hwrite
    have hinv : MonitorInv w' := by
      refine h.setStatus hset ?_ fun before => hhonest.justified hid hverdict
      rintro - rfl r' hr' s' hs' hid'
      obtain rfl := h.eq_of_hostId hk hstate hr' hs' hid'
      obtain rfl := Option.some.inj (hs.symm.trans hs')
      exact hhonest.successes_eq_zero hverdict
    have hk' : w'.probes[k]? = some p := by
      rw [MonitorWorld.setStatus] at hset
      obtain ⟨host, -, rfl⟩ := Option.map_eq_some_iff.mp hset
      exact hk
    exact hinv.goto hk' (fun r' hr' => by cases hr') fun r' status' hstage' => by cases hstage'
  · have hdone : MonitorInv (w.goto k .done) :=
      h.goto hk (fun r' hr' => by cases hr') fun r' status' hstage' => by cases hstage'
    exact hdone.of_eq rfl rfl rfl rfl

/-- Every step keeps the invariant, if the counters are fresh. -/
theorem MonitorInv.step (h : MonitorInv w) (hok : countersFresh w event = true)
    (hs : monitorStep w event = some w') : MonitorInv w' := by
  cases event with
  | runHostHealthCheck =>
      obtain rfl := Option.some.inj hs
      split
      · exact h
      · exact h.runHostHealthCheck
  | startProbe k =>
      simp only [monitorStep] at hs
      split at hs
      · rename_i p hk
        split at hs
        · obtain rfl := Option.some.inj hs
          exact h.startProbe hk (by simpa [countersFresh, hk] using hok)
        · cases hs
      · cases hs
  | answer k ok =>
      simp only [monitorStep] at hs
      split at hs
      · rename_i hk
        obtain rfl := Option.some.inj hs
        exact h.answer hk rfl
      · cases hs
  | clientRemoved k =>
      simp only [monitorStep] at hs
      split at hs
      · rename_i hk
        obtain rfl := Option.some.inj hs
        exact h.decide hk rfl
      · cases hs
  | write k ok =>
      simp only [monitorStep] at hs
      split at hs
      · rename_i hk
        obtain rfl := Option.some.inj hs
        exact h.write hk rfl
      · cases hs
  | runEnds =>
      simp only [monitorStep] at hs
      split at hs
      · obtain rfl := Option.some.inj hs
        exact h.of_eq rfl rfl rfl rfl
      · cases hs
  | updateHostStatus hostId status =>
      refine h.setStatus hs ?_ fun before => by cases status <;> trivial
      rintro hgoes rfl r hr s hstate rfl
      simp only [countersFresh, hgoes, Bool.true_and, Bool.not_eq_true',
        MonitorWorld.countsSuccess, List.any_eq_false] at hok
      simpa [hstate] using hok r hr
  | updateHost | createHost | deleteHost =>
      obtain rfl := Option.some.inj hs
      exact h.of_eq rfl rfl rfl rfl
  | restart =>
      obtain rfl := Option.some.inj hs
      constructor
      case kept => exact h.kept
      all_goals simp [MonitorWorld.held]

end Invariant

/-- A process that has just started. -/
theorem monitorInv_start (hosts : List MonitoredHost) (nextId : ℕ) :
    MonitorInv { hosts, nextId } := by
  constructor
  case kept => trivial
  all_goals simp [MonitorWorld.held]

/-- In every run in which counters are fresh when a host goes offline, and no two probes of a host
meet, the monitor keeps its promise. -/
theorem hysteresis_kept (hosts : List MonitoredHost) (nextId : ℕ) {w : MonitorWorld}
    (hrun : Machine.Reach monitorStep (fun w event => countersFresh w event = true)
      { hosts, nextId } w) : HysteresisKept w.history :=
  (hrun.invariant (monitorInv_start hosts nextId) fun h hok hs => h.step hok hs).kept

/-- A run with the probe of the only host, `k` probes having been before. -/
def probeOnce (k : ℕ) (ok : Bool) : List MonitorEvent :=
  [.runHostHealthCheck, .startProbe k, .answer k ok]

/-- A host that fails three times goes offline, and comes back after five successes. -/
theorem hysteresis_kept_round :
    ∃ w : MonitorWorld,
      Machine.Reach monitorStep (fun w event => countersFresh w event = true)
        { hosts := [⟨1, .online, true⟩], nextId := 2 } w ∧
      HysteresisKept w.history ∧ w.hosts = [⟨1, .online, true⟩] ∧
      HealthRecord.written 1 .online .offline true ∈ w.history ∧
      HealthRecord.written 1 .offline .online true ∈ w.history := by
  let failing (k : ℕ) := probeOnce k false ++ [.clientRemoved k]
  let passing (k : ℕ) := probeOnce k true
  let events : List MonitorEvent :=
    failing 0 ++ [.runEnds] ++ failing 1 ++ [.runEnds] ++ failing 2 ++ [.write 2 true, .runEnds] ++
      passing 3 ++ [.runEnds] ++ passing 4 ++ [.runEnds] ++ passing 5 ++ [.runEnds] ++
      passing 6 ++ [.runEnds] ++ passing 7 ++ [.write 7 true, .runEnds]
  have hends : (Machine.exec (Machine.guarded monitorStep countersFresh)
      { hosts := [⟨1, .online, true⟩], nextId := 2 } events).any (fun w =>
        decide (w.hosts = [⟨1, .online, true⟩] ∧
          HealthRecord.written 1 .online .offline true ∈ w.history ∧
          HealthRecord.written 1 .offline .online true ∈ w.history)) = true := by decide
  obtain ⟨w, hexec, hfacts⟩ := Option.any_eq_true _ _ |>.mp hends
  have hrun := Machine.reach_of_exec_guarded hexec
  exact ⟨w, hrun, hysteresis_kept _ _ hrun, of_decide_eq_true hfacts⟩

/-- After five successes, and taken offline by another process, a host is back at its next success:
one success has come since it went offline. -/
theorem restored_at_once :
    ∃ w : MonitorWorld,
      Machine.Reach monitorStep Machine.free { hosts := [⟨1, .online, true⟩], nextId := 2 } w ∧
      ¬HysteresisKept w.history := by
  let passing (k : ℕ) := probeOnce k true
  let events : List MonitorEvent :=
    passing 0 ++ [.runEnds] ++ passing 1 ++ [.runEnds] ++ passing 2 ++ [.runEnds] ++
      passing 3 ++ [.runEnds] ++ [.updateHostStatus 1 .offline] ++ passing 4 ++ [.write 4 true]
  have hends : (Machine.exec monitorStep
      { hosts := [⟨1, .online, true⟩], nextId := 2 } events).any (fun w =>
        decide (w.history = [.written 1 .offline .online true, .checked 1 true,
          .written 1 .online .offline false, .checked 1 true, .checked 1 true, .checked 1 true,
          .checked 1 true])) = true := by decide
  obtain ⟨w, hexec, hhistory⟩ := Option.any_eq_true _ _ |>.mp hends
  refine ⟨w, Machine.reach_of_exec hexec, fun hkept => ?_⟩
  rw [of_decide_eq_true hhistory] at hkept
  have hprefix : List.replicate RECOVERY_THRESHOLD true <+: [true] := hkept.1
  exact absurd hprefix.length_le (by decide)

end Incudal
