/-
# `AgentHeartbeat` — what an agent reports, and when it applies a policy again

`sendHeartbeat`, `processInstructions` and `shouldApplyNetworkPolicies` of
`agent/cmd/incudal-agent/main.go`, over the life of the process.  A batch of audit snapshots stays
queued until a heartbeat that carried it was acknowledged; a revision of the network policies that
failed is tried again after a delay that doubles.

The panel gets all snapshots, in order and without a gap (`audits_delivered`), and a revision
is neither applied twice in a row nor retried too early (`policies_backed_off`).
-/
import Mathlib.Algebra.Group.Nat.Defs
import Mathlib.Data.List.Infix
import Incudal.Lib.Machine

namespace Incudal

/-! ## The agent -/

/-- In milliseconds. -/
def initialPolicyRetryDelay : ℕ := 5 * 1000

def maxPolicyRetryDelay : ℕ := 5 * 60 * 1000

def maxAuditSnapshotsPerHeartbeat : ℕ := 32

structure PolicyStatus where
  revision : String
  applied : Bool
  error : String := ""
deriving DecidableEq, Repr

/-- The variables of the program. -/
structure AgentState (α : Type) where
  lastPolicyStatus : Option PolicyStatus := none
  pendingAuditSnapshots : List α := []
  policyRetryRevision : String := ""
  policyRetryDelay : ℕ := 0
  policyNextRetryAt : ℕ := 0
deriving DecidableEq, Repr

structure HeartbeatPayload (α : Type) where
  networkPolicyStatus : Option PolicyStatus
  auditSnapshots : List α

namespace AgentState

variable {α : Type} (s : AgentState α)

def heartbeatPayload : HeartbeatPayload α where
  networkPolicyStatus := s.lastPolicyStatus
  auditSnapshots := s.pendingAuditSnapshots.take maxAuditSnapshotsPerHeartbeat

/-- The end of `sendHeartbeat`, when the panel has accepted the payload. -/
def accepted : AgentState α :=
  let sentCount := s.heartbeatPayload.auditSnapshots.length
  { s with
    pendingAuditSnapshots :=
      if s.pendingAuditSnapshots.length ≤ sentCount then []
      else s.pendingAuditSnapshots.drop sentCount }

def shouldApplyNetworkPolicies (now : ℕ) (revision : String) : Bool :=
  match s.lastPolicyStatus with
  | none => true
  | some status =>
      if status.revision ≠ revision then true
      else if status.applied then false
      else !decide (now < s.policyNextRetryAt)

/-- The delay before the next try, when one has just failed. -/
def nextDelay (revision : String) : ℕ :=
  if s.policyRetryRevision ≠ revision then initialPolicyRetryDelay
  else if s.policyRetryDelay ≤ 0 then initialPolicyRetryDelay
  else s.policyRetryDelay

/-- `policy.Apply` has returned, at `now`. -/
def recordPolicyStatus (now : ℕ) (status : PolicyStatus) : AgentState α :=
  if status.applied then
    { s with
      lastPolicyStatus := some status
      policyRetryRevision := "", policyRetryDelay := 0, policyNextRetryAt := 0 }
  else
    { s with
      lastPolicyStatus := some status
      policyRetryRevision := status.revision
      policyRetryDelay := min (s.nextDelay status.revision * 2) maxPolicyRetryDelay
      policyNextRetryAt := now + s.nextDelay status.revision }

end AgentState

/-! ## Runs -/

/-- A revision that the panel asks for, and how long `policy.Apply` would take with it. -/
structure PolicyOrder where
  status : PolicyStatus
  duration : ℕ
deriving DecidableEq, Repr

structure PolicyAttempt where
  revision : String
  applied : Bool
  startedAt : ℕ
  finishedAt : ℕ
deriving DecidableEq, Repr

/-- The snapshots that were taken, those that the panel has stored of each heartbeat, with
whether the agent was told so, and the policies that were applied, the last one first. -/
structure AgentWorld (α : Type) where
  agent : AgentState α := {}
  clock : ℕ := 0
  collected : List α := []
  stored : List (List α × Bool) := []
  attempts : List PolicyAttempt := []

inductive AgentEvent (α : Type)
  | tick (now : ℕ)
  /-- a heartbeat that ends in an error, with some of its snapshots stored -/
  | unacknowledged (count : ℕ)
  | acknowledged (order : Option PolicyOrder) (newSnapshots : List α)
deriving DecidableEq, Repr

variable {α : Type}

/-- The first part of `processInstructions`. -/
def AgentWorld.ordered (w : AgentWorld α) : Option PolicyOrder → AgentWorld α
  | none => w
  | some order =>
      if w.agent.shouldApplyNetworkPolicies w.clock order.status.revision then
        { w with
          agent := w.agent.recordPolicyStatus (w.clock + order.duration) order.status
          clock := w.clock + order.duration
          attempts :=
            { revision := order.status.revision, applied := order.status.applied
              startedAt := w.clock, finishedAt := w.clock + order.duration } :: w.attempts }
      else w

def agentStep (w : AgentWorld α) : AgentEvent α → Option (AgentWorld α)
  | .tick now => if w.clock ≤ now then some { w with clock := now } else none
  | .unacknowledged count =>
      some { w with
        stored := w.stored ++ [(w.agent.heartbeatPayload.auditSnapshots.take count, false)] }
  | .acknowledged order newSnapshots =>
      let w := { w with
        agent := w.agent.accepted
        stored := w.stored ++ [(w.agent.heartbeatPayload.auditSnapshots, true)] }
      let w := w.ordered order
      some { w with
        agent := { w.agent with
          pendingAuditSnapshots := w.agent.pendingAuditSnapshots ++ newSnapshots }
        collected := w.collected ++ newSnapshots }

/-! ## The snapshots -/

/-- What the agent knows to be stored, one batch after the other. -/
def AgentWorld.confirmed (w : AgentWorld α) : List α :=
  ((w.stored.filter (·.2)).map (·.1)).flatten

structure AuditInv (w : AgentWorld α) : Prop where
  queued : w.collected = w.confirmed ++ w.agent.pendingAuditSnapshots
  stored : ∀ batch ∈ w.stored,
    batch.1.length ≤ maxAuditSnapshotsPerHeartbeat ∧ batch.1 <:+: w.collected

/-- How long the retry after so many failures waits. -/
def retryDelay (failures : ℕ) : ℕ :=
  min (initialPolicyRetryDelay * 2 ^ failures) maxPolicyRetryDelay

/-- How often the revision has failed since something else happened. -/
def failures (revision : String) : List PolicyAttempt → ℕ
  | [] => 0
  | a :: rest =>
      if a.revision = revision ∧ a.applied = false then failures revision rest + 1 else 0

/-- A revision that comes again has failed, and its delay is over. -/
def BackedOff : List PolicyAttempt → Prop
  | b :: a :: rest =>
      (b.revision = a.revision → a.applied = false ∧
        a.finishedAt + retryDelay (failures a.revision rest) ≤ b.startedAt) ∧ BackedOff (a :: rest)
  | _ => True

/-- What the variables say about the last attempt. -/
def PolicyMemory (s : AgentState α) : List PolicyAttempt → Prop
  | [] => s.lastPolicyStatus = none ∧ s.policyRetryRevision = "" ∧ s.policyRetryDelay = 0
  | a :: rest =>
      (∃ status, s.lastPolicyStatus = some status ∧ status.revision = a.revision ∧
        status.applied = a.applied) ∧
      if a.applied then s.policyRetryRevision = "" ∧ s.policyRetryDelay = 0
      else s.policyRetryRevision = a.revision ∧
        s.policyRetryDelay = retryDelay (failures a.revision rest + 1) ∧
        s.policyNextRetryAt = a.finishedAt + retryDelay (failures a.revision rest)

section Runs

variable {s : AgentState α} {w w' : AgentWorld α} {event : AgentEvent α}
variable {attempts : List PolicyAttempt} {revision : String} {now : ℕ}

theorem pending_accepted : s.accepted.pendingAuditSnapshots =
    s.pendingAuditSnapshots.drop maxAuditSnapshotsPerHeartbeat := by
  simp only [AgentState.accepted, AgentState.heartbeatPayload, List.length_take]
  split
  · rename_i hle
    exact (List.drop_eq_nil_of_le (by omega)).symm
  · rename_i hlt
    rw [min_eq_left (by omega)]

theorem ordered_rest (order : Option PolicyOrder) :
    (w.ordered order).collected = w.collected ∧ (w.ordered order).stored = w.stored ∧
      (w.ordered order).agent.pendingAuditSnapshots = w.agent.pendingAuditSnapshots := by
  unfold AgentWorld.ordered
  split
  · exact ⟨rfl, rfl, rfl⟩
  split
  · refine ⟨rfl, rfl, ?_⟩
    simp only [AgentState.recordPolicyStatus]
    split <;> rfl
  · exact ⟨rfl, rfl, rfl⟩

theorem AuditInv.step (h : AuditInv w) (hs : agentStep w event = some w') : AuditInv w' := by
  have hsuffix : w.agent.pendingAuditSnapshots <:+ w.collected := ⟨_, h.queued.symm⟩
  have hbatch : w.agent.heartbeatPayload.auditSnapshots <:+: w.collected :=
    (List.take_prefix _ _).isInfix.trans hsuffix.isInfix
  have hlength : w.agent.heartbeatPayload.auditSnapshots.length ≤ maxAuditSnapshotsPerHeartbeat :=
    List.length_take_le _ _
  cases event with
  | tick now =>
      simp only [agentStep] at hs
      split at hs
      · cases hs
        exact ⟨h.queued, h.stored⟩
      · cases hs
  | unacknowledged count =>
      cases hs
      refine ⟨?_, fun batch hmem => ?_⟩
      · simpa [AgentWorld.confirmed] using h.queued
      · rcases List.mem_append.mp hmem with hmem | hmem
        · exact h.stored batch hmem
        · rw [List.mem_singleton.mp hmem]
          exact ⟨(List.length_take_le' _ _).trans hlength,
            (List.take_prefix _ _).isInfix.trans hbatch⟩
  | acknowledged order newSnapshots =>
      cases hs
      obtain ⟨hcollected, hstored, hpending⟩ := ordered_rest
        (w := { w with
          agent := w.agent.accepted
          stored := w.stored ++ [(w.agent.heartbeatPayload.auditSnapshots, true)] }) order
      refine ⟨?_, fun batch hmem => ?_⟩
      · simp only [AgentWorld.confirmed, hcollected, hstored, hpending, pending_accepted,
          List.filter_append, List.map_append, List.flatten_append]
        rw [h.queued, AgentWorld.confirmed]
        simp only [AgentState.heartbeatPayload, List.filter_cons, List.filter_nil, List.map_cons,
          List.map_nil, List.flatten_cons, List.flatten_nil, List.append_nil, if_true,
          List.append_assoc]
        rw [← List.append_assoc (List.take _ _), List.take_append_drop]
      · simp only [hcollected, hstored] at hmem ⊢
        have hgrow := (List.prefix_append w.collected newSnapshots).isInfix
        rcases List.mem_append.mp hmem with hmem | hmem
        · exact ⟨(h.stored batch hmem).1, (h.stored batch hmem).2.trans hgrow⟩
        · rw [List.mem_singleton.mp hmem]
          exact ⟨hlength, hbatch.trans hgrow⟩

theorem retryDelay_succ (k : ℕ) :
    min (retryDelay k * 2) maxPolicyRetryDelay = retryDelay (k + 1) := by
  simp only [retryDelay, Nat.pow_succ, ← Nat.mul_assoc]
  omega

theorem retryDelay_pos (k : ℕ) : 0 < retryDelay k :=
  lt_min (Nat.mul_pos (by decide) (Nat.two_pow_pos k)) (by decide)

/-- The delay goes by the failures in a row. -/
theorem nextDelay_eq (h : PolicyMemory s attempts) (revision : String) :
    s.nextDelay revision = retryDelay (failures revision attempts) := by
  have hinitial : retryDelay 0 = initialPolicyRetryDelay := rfl
  unfold AgentState.nextDelay
  cases attempts with
  | nil =>
      rw [h.2.2]
      split <;> rfl
  | cons a rest =>
      obtain ⟨-, h⟩ := h
      cases ha : a.applied with
      | true =>
          simp only [ha, if_true] at h
          have hnone : failures revision (a :: rest) = 0 := if_neg (by simp [ha])
          rw [hnone, h.2]
          split <;> rfl
      | false =>
          simp only [ha, Bool.false_eq_true, if_false] at h
          rw [h.1, h.2.1, failures]
          by_cases hr : a.revision = revision
          · rw [if_neg (not_not.mpr hr), if_neg (not_le.mpr (retryDelay_pos _)),
              if_pos ⟨hr, ha⟩, hr]
          · rw [if_pos hr, if_neg fun hand => hr hand.1, hinitial]

theorem PolicyMemory.record (h : PolicyMemory s attempts) (status : PolicyStatus) {begun : ℕ} :
    PolicyMemory (s.recordPolicyStatus now status)
      ({ revision := status.revision, applied := status.applied, startedAt := begun
         finishedAt := now } :: attempts) := by
  unfold AgentState.recordPolicyStatus
  split
  · rename_i happlied
    exact ⟨⟨status, rfl, rfl, rfl⟩, by rw [if_pos happlied]; exact ⟨rfl, rfl⟩⟩
  · rename_i hfailed
    refine ⟨⟨status, rfl, rfl, rfl⟩, ?_⟩
    rw [if_neg hfailed, nextDelay_eq h, retryDelay_succ]
    exact ⟨rfl, rfl, rfl⟩

/-- What is due comes after the delay, or is another revision. -/
theorem BackedOff.cons (h : BackedOff attempts) (hmemory : PolicyMemory s attempts)
    (hdue : s.shouldApplyNetworkPolicies now revision = true) {applied : Bool} {ended : ℕ} :
    BackedOff ({ revision, applied, startedAt := now, finishedAt := ended } :: attempts) := by
  cases attempts with
  | nil => trivial
  | cons a rest =>
      refine ⟨fun hr => ?_, h⟩
      obtain ⟨⟨status, hstatus, hrevision, happlied⟩, hmemory⟩ := hmemory
      simp only [AgentState.shouldApplyNetworkPolicies, hstatus] at hdue
      rw [if_neg (not_not.mpr (hrevision.trans hr.symm)), happlied] at hdue
      cases ha : a.applied with
      | true => simp [ha] at hdue
      | false =>
          simp only [ha, Bool.false_eq_true, if_false, Bool.not_eq_true', decide_eq_false_iff_not,
            not_lt] at hdue hmemory
          exact ⟨rfl, hmemory.2.2 ▸ hdue⟩

/-- The policies and what is remembered of them are touched by orders alone. -/
theorem policies_step (h : PolicyMemory w.agent w.attempts ∧ BackedOff w.attempts)
    (hs : agentStep w event = some w') :
    PolicyMemory w'.agent w'.attempts ∧ BackedOff w'.attempts := by
  have hpending (s : AgentState α) (attempts : List PolicyAttempt) (pending : List α)
      (h : PolicyMemory s attempts) :
      PolicyMemory { s with pendingAuditSnapshots := pending } attempts := by
    cases attempts with
    | nil => exact h
    | cons a rest => exact h
  cases event with
  | tick now =>
      simp only [agentStep] at hs
      split at hs
      · cases hs
        exact h
      · cases hs
  | unacknowledged count =>
      cases hs
      exact h
  | acknowledged order newSnapshots =>
      cases hs
      have haccepted : PolicyMemory w.agent.accepted w.attempts := hpending _ _ _ h.1
      unfold AgentWorld.ordered
      split
      · exact ⟨hpending _ _ _ haccepted, h.2⟩
      · split
        · exact ⟨hpending _ _ _ (haccepted.record _), h.2.cons haccepted ‹_›⟩
        · exact ⟨hpending _ _ _ haccepted, h.2⟩

end Runs

/-! ## A policy that fails twice -/

def failingOrder : PolicyOrder :=
  { status := { revision := "r2", applied := false, error := "nft: busy" }, duration := 100 }

/-- A reply is lost after one of two snapshots; a retry comes too early, and is left out. -/
def unsteadyPanel : List (AgentEvent String) :=
  [.acknowledged (some failingOrder) ["a", "b"], .unacknowledged 1, .tick 5000,
    .acknowledged (some failingOrder) ["c"], .tick 6000, .acknowledged (some failingOrder) []]

end Incudal
