import VpsGuard.Control.Rollups

/-!
# The queue of traffic samples

What `guard-edge` reports reaches the tables of `guard-control` through a bounded queue. One
task receives the samples and puts them into the queue, without waiting. One thread takes them
out, in batches, and stores each batch in a transaction. The two share the queue and the
numbers that the health report is made of, by atomic operations only:

* a sample counts as queued before it is sent, and again not when it was refused, or taken out;
* a refused sample, a batch that the budget does not allow, and one whose transaction fails are
  counted as dropped.

Proved about every interleaving (`traffic_accounted`): what is stored, in a batch and in the queue
are samples that were received, in their order and none of them twice, the depth is never lowered
from zero, every other sample is counted as dropped, and the tables are those of the samples stored.

The counters are natural numbers here. The times of the last events are left out.
-/

namespace VpsGuard.TrafficQueue

open TrafficTables

def trafficQueueCapacity : ℕ := 4096

def storageBatchSize : ℕ := 256

/-- What the thread is about that receives samples. -/
inductive Receiver
  | receiving
  /-- The sample counts as queued. -/
  | sending (telemetry : TrafficEnvelope)
  /-- The queue was full. -/
  | refused
  /-- The sample does not count as queued any more. -/
  | dropping

/-- What the thread is about that stores samples. -/
inductive Writer
  | receiving
  /-- The last sample of the batch still counts as queued. -/
  | dequeued (batch : List TrafficEnvelope)
  | collecting (batch : List TrafficEnvelope)
  | writing (batch : List TrafficEnvelope)
  | failed (batch : List TrafficEnvelope)
  | rejected (batch : List TrafficEnvelope)
  | committed (samples : ℕ)
  | counted

/-- The two threads, the queue, the tables and the counters. -/
structure State where
  receiver : Receiver
  writer : Writer
  queue : List TrafficEnvelope
  tables : TrafficTables
  queueDepth : ℕ
  queueDroppedSamples : ℕ
  writeDroppedSamples : ℕ
  persistedSamples : ℕ
  persistedBatches : ℕ
  writeFailures : ℕ

/-- A sample is received, or one of the two goes on. -/
inductive Move
  | receive (telemetry : TrafficEnvelope)
  | receiver
  /-- With what the health allows, and what becomes of a transaction. -/
  | writer (acceptsTrafficWrites fails : Bool) (scans : Scans)

@[simp] def Move.received : Move → List TrafficEnvelope
  | receive telemetry => [telemetry]
  | _ => []

namespace State

def start : State := ⟨.receiving, .receiving, [], .empty, 0, 0, 0, 0, 0, 0⟩

/-- The receiving thread goes on: the sample is queued, or dropped if the queue is full. -/
def receive (s : State) : Option State :=
  match s.receiver with
  | .receiving => none
  | .sending telemetry =>
    if s.queue.length < trafficQueueCapacity then
      some { s with receiver := .receiving, queue := s.queue ++ [telemetry] }
    else some { s with receiver := .refused }
  | .refused => some { s with receiver := .dropping, queueDepth := s.queueDepth - 1 }
  | .dropping =>
    some { s with receiver := .receiving, queueDroppedSamples := s.queueDroppedSamples + 1 }

/-- The storing thread goes on: it collects a batch, and stores it as a whole or drops it. -/
def write (store : TrafficStore) (s : State) (acceptsTrafficWrites fails : Bool) (scans : Scans) :
    Option State :=
  match s.writer with
  | .receiving =>
    -- The thread waits for a sample.
    match s.queue with
    | [] => none
    | telemetry :: queue => some { s with writer := .dequeued [telemetry], queue }
  | .dequeued batch => some { s with writer := .collecting batch, queueDepth := s.queueDepth - 1 }
  | .collecting batch =>
    match s.queue with
    | [] => some { s with writer := .writing batch }
    | telemetry :: queue =>
      if batch.length < storageBatchSize then
        some { s with writer := .dequeued (batch ++ [telemetry]), queue }
      else some { s with writer := .writing batch }
  | .writing batch =>
    if acceptsTrafficWrites then
      match if fails then none else recordTrafficBatch store scans s.tables batch with
      | some tables => some { s with writer := .committed batch.length, tables }
      | none => some { s with writer := .failed batch }
    else some { s with writer := .rejected batch }
  | .failed batch => some { s with writer := .rejected batch, writeFailures := s.writeFailures + 1 }
  | .rejected batch => some
      { s with writer := .receiving, writeDroppedSamples := s.writeDroppedSamples + batch.length }
  | .committed samples =>
    some { s with writer := .counted, persistedSamples := s.persistedSamples + samples }
  | .counted => some { s with writer := .receiving, persistedBatches := s.persistedBatches + 1 }

def step (store : TrafficStore) (s : State) : Move → Option State
  | .receive telemetry =>
    match s.receiver with
    | .receiving => some { s with receiver := .sending telemetry, queueDepth := s.queueDepth + 1 }
    | _ => none
  | .receiver => s.receive
  | .writer acceptsTrafficWrites fails scans => s.write store acceptsTrafficWrites fails scans

def run (store : TrafficStore) (moves : List Move) : Option State := moves.foldlM (step store) start

end State

/-! ## What becomes of a sample -/

/-- The sample that is not in the queue yet. -/
@[simp] def Receiver.unsent : Receiver → List TrafficEnvelope
  | sending telemetry => [telemetry]
  | _ => []

@[simp] def Receiver.counted : Receiver → ℕ
  | sending _ | refused => 1
  | _ => 0

/-- The samples that are neither in the queue nor dropped. -/
@[simp] def Receiver.pending : Receiver → ℕ
  | receiving => 0
  | _ => 1

/-- The samples of the batch, unless they are stored. -/
@[simp] def Writer.unstored : Writer → List TrafficEnvelope
  | dequeued batch | collecting batch | writing batch | failed batch | rejected batch => batch
  | _ => []

@[simp] def Writer.queued : Writer → ℕ
  | dequeued _ => 1
  | _ => 0

/-- The samples that are stored and do not count as such. -/
@[simp] def Writer.uncounted : Writer → ℕ
  | committed samples => samples
  | _ => 0

/-- Of the samples received, the given ones are stored, and all others are accounted for. -/
structure Accounted (store : TrafficStore) (received persisted : List TrafficEnvelope) (s : State) :
    Prop where
  order : (persisted ++ s.writer.unstored ++ s.queue ++ s.receiver.unsent).Sublist received
  queueDepth : s.queueDepth = s.queue.length + s.receiver.counted + s.writer.queued
  samples : received.length = persisted.length + s.writeDroppedSamples + s.queueDroppedSamples +
    s.writer.unstored.length + s.queue.length + s.receiver.pending
  persistedSamples : persisted.length = s.persistedSamples + s.writer.uncounted
  queue_le : s.queue.length ≤ trafficQueueCapacity
  batch_le : s.writer.unstored.length ≤ storageBatchSize
  tables : NoOverflow store persisted → Exact store persisted s.tables

variable {store : TrafficStore} {received persisted : List TrafficEnvelope} {s t : State}

theorem accounted_start : Accounted store [] [] .start where
  order := .slnil
  queueDepth := rfl
  samples := rfl
  persistedSamples := rfl
  queue_le := Nat.zero_le _
  batch_le := Nat.zero_le _
  tables _ := exact_empty

theorem Accounted.receive (h : Accounted store received persisted s) (hstep : s.receive = some t) :
    Accounted store received persisted t := by
  obtain ⟨receiver, writer, queue, tables, depth, dropped, _, _, _, _⟩ := s
  have hdepth := h.queueDepth
  have hsamples := h.samples
  cases receiver with
  | receiving => cases hstep
  | sending telemetry =>
    simp only [State.receive] at hstep
    split at hstep <;> cases hstep
    · next hfree => exact { h with
        order := by simpa using h.order
        queueDepth := by simp at hdepth ⊢; omega
        samples := by simp at hsamples ⊢; omega
        queue_le := by simp; exact hfree }
    · exact { h with order := (by simp : List.Sublist _ _).trans h.order }
  | refused =>
    -- The sample still counts as queued, so the depth is not zero.
    cases hstep
    exact { h with queueDepth := by simp at hdepth ⊢; omega }
  | dropping =>
    cases hstep
    exact { h with samples := by simp at hsamples ⊢; omega }

/-- A sample goes from the queue to the batch. -/
theorem Accounted.dequeue {telemetry : TrafficEnvelope} {queue : List TrafficEnvelope}
    (h : Accounted store received persisted s) (hqueue : s.queue = telemetry :: queue)
    (hqueued : s.writer.queued = 0) (huncounted : s.writer.uncounted = 0)
    (hfree : s.writer.unstored.length < storageBatchSize) : Accounted store received persisted
      { s with writer := .dequeued (s.writer.unstored ++ [telemetry]), queue } := by
  obtain ⟨horder, hdepth, hsamples, hpersisted, hle, -, htables⟩ := h
  rw [hqueue] at horder hdepth hsamples hle
  rw [hqueued] at hdepth
  rw [huncounted] at hpersisted
  generalize s.writer.unstored = batch at *
  refine ⟨by simpa using horder, ?_, ?_, hpersisted, ?_, by simp; exact hfree, htables⟩ <;>
    simp at hdepth hsamples hle ⊢ <;> omega

theorem Accounted.write {acceptsTrafficWrites fails : Bool} {scans : Scans}
    (h : Accounted store received persisted s)
    (hstep : s.write store acceptsTrafficWrites fails scans = some t) :
    ∃ persisted, Accounted store received persisted t := by
  obtain ⟨receiver, writer, queue, tables, depth, _, dropped, _, _, _⟩ := s
  have hdepth := h.queueDepth
  have hsamples := h.samples
  cases writer with
  | receiving =>
    cases queue <;> cases hstep
    exact ⟨persisted, h.dequeue rfl rfl rfl (by simp [storageBatchSize])⟩
  | dequeued batch =>
    -- The sample counted as queued, so the depth is not zero.
    cases hstep
    exact ⟨persisted, { h with queueDepth := by simp at hdepth ⊢; omega }⟩
  | collecting batch =>
    cases queue with
    | nil =>
      cases hstep
      exact ⟨persisted, { h with }⟩
    | cons telemetry queue =>
      simp only [State.write] at hstep
      split at hstep <;> cases hstep
      · next hfree => exact ⟨persisted, h.dequeue rfl rfl rfl hfree⟩
      · exact ⟨persisted, { h with }⟩
  | writing batch =>
    simp only [State.write] at hstep
    split at hstep
    · split at hstep <;> cases hstep
      · next tables hrecord =>
        split at hrecord
        · cases hrecord
        · -- The batch is stored.
          have hpersisted := h.persistedSamples
          exact ⟨persisted ++ batch, { h with
            order := by simpa using h.order
            samples := by simp at hsamples ⊢; omega
            persistedSamples := by simp at hpersisted ⊢; omega
            batch_le := Nat.zero_le _
            tables := fun hfits => (h.tables hfits.left).recordTrafficBatch hrecord hfits }⟩
      · exact ⟨persisted, { h with }⟩
    · cases hstep
      exact ⟨persisted, { h with }⟩
  | failed | counted =>
    cases hstep
    exact ⟨persisted, { h with }⟩
  | rejected batch =>
    cases hstep
    exact ⟨persisted, { h with
      order := (by simp : List.Sublist _ _).trans h.order
      samples := by simp at hsamples ⊢; omega
      batch_le := Nat.zero_le _ }⟩
  | committed samples =>
    cases hstep
    exact ⟨persisted, { h with persistedSamples := by simpa using h.persistedSamples }⟩

theorem Accounted.step {m : Move} (h : Accounted store received persisted s)
    (hstep : s.step store m = some t) :
    ∃ persisted, Accounted store (received ++ m.received) persisted t := by
  cases m with
  | receive telemetry =>
    obtain ⟨receiver, writer, queue, tables, depth, _, _, _, _, _⟩ := s
    cases receiver <;> cases hstep
    have hdepth := h.queueDepth
    have hsamples := h.samples
    exact ⟨persisted, { h with
      order := by simpa using h.order.append_right [telemetry]
      queueDepth := by simp at hdepth ⊢; omega
      samples := by simp at hsamples ⊢; omega }⟩
  | receiver =>
    simp only [Move.received, List.append_nil]
    exact ⟨persisted, h.receive hstep⟩
  | writer =>
    simp only [Move.received, List.append_nil]
    exact h.write hstep

/-- In every interleaving, the samples received are stored, in a batch, in the queue, or counted
    as dropped, in the order received, and the tables are those of the samples stored. When both
    sides rest, the depth is that of the queue and the counters add up. -/
theorem traffic_accounted {moves : List Move} (h : State.run store moves = some s) :
    ∃ persisted, Accounted store (moves.flatMap Move.received) persisted s ∧
      (s.receiver = .receiving → s.writer = .receiving → s.queueDepth = s.queue.length ∧
        persisted.length = s.persistedSamples ∧ (moves.flatMap Move.received).length =
          s.persistedSamples + s.writeDroppedSamples + s.queueDroppedSamples + s.queue.length) := by
  suffices haccounted : ∃ persisted, Accounted store (moves.flatMap Move.received) persisted s by
    obtain ⟨persisted, haccounted⟩ := haccounted
    refine ⟨persisted, haccounted, fun hreceiver hwriter => ?_⟩
    obtain ⟨-, hdepth, hsamples, hpersisted, -, -, -⟩ := haccounted
    simp_all [Receiver.counted, Receiver.pending, Writer.unstored, Writer.queued, Writer.uncounted]
  induction moves using List.reverseRecOn generalizing s with
  | nil =>
    cases h
    exact ⟨[], accounted_start⟩
  | append_singleton moves m ih =>
    rw [State.run, List.foldlM_append] at h
    obtain ⟨u, hu, hlast⟩ := Option.bind_eq_some_iff.1 h
    obtain ⟨persisted, haccounted⟩ := ih hu
    rw [List.flatMap_append, List.flatMap_singleton]
    exact haccounted.step (by simpa using hlast)

/-- Two samples are stored in a batch, the second of which is sent while the first is taken from
    the queue. A third is not accepted, and a fourth is left in the queue. -/
def sampleMoves : List Move :=
  let write := Move.writer true false ⟨.inOrder _, .inOrder _, .inOrder _, .inOrder _⟩
  let reject := Move.writer false false ⟨.inOrder _, .inOrder _, .inOrder _, .inOrder _⟩
  [.receive (sampleEnvelope "a" 61000), .receiver, .receive (crawlerEnvelope "b" 75000), write,
    .receiver, write, write, write, write, write, write, write,
    .receive (sampleEnvelope "c" 76000), .receiver, write, write, write, reject, write,
    .receive (sampleEnvelope "d" 77000), .receiver]

theorem traffic_accounted_sampleMoves : ∃ s persisted,
    State.run ⟨true, fun _ => "66.249.66.1"⟩ sampleMoves = some s ∧
      Accounted ⟨true, fun _ => "66.249.66.1"⟩ [sampleEnvelope "a" 61000,
        crawlerEnvelope "b" 75000, sampleEnvelope "c" 76000, sampleEnvelope "d" 77000] persisted s ∧
      persisted.length = 2 ∧ s.queueDepth = 1 ∧ s.writeDroppedSamples = 1 ∧
      s.tables.samples.entries.length = 2 := by
  obtain ⟨s, hrun⟩ : ∃ s, State.run ⟨true, fun _ => "66.249.66.1"⟩ sampleMoves = some s := ⟨_, rfl⟩
  obtain ⟨persisted, haccounted, hrest⟩ := traffic_accounted hrun
  cases hrun
  exact ⟨_, persisted, rfl, haccounted, (hrest rfl rfl).2.1, rfl, rfl, rfl⟩

end VpsGuard.TrafficQueue
