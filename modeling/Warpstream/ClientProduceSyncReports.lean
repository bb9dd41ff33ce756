import Warpstream.ClientProduceSync

set_option autoImplicit false

/- What `ProduceSync` reports for each position, and how its wait group counts. -/
namespace Warpstream

namespace ProduceSyncCall

variable (call : ProduceSyncCall)

/-- The size of a record and its partition do not depend on its context. -/
theorem seeded_eq (r : RecordPtr) : ∃ context, call.seeded r = { call.heap r with context } := by
  have fold (rest : List RecordPtr) (heap : RecordHeap)
      (seeds : ∃ context, heap r = { call.heap r with context }) :
      ∃ context, rest.foldl (fun heap q =>
        Function.update heap q (ensureRecordContext (heap q) call.ctx)) heap r =
          { call.heap r with context } := by
    induction rest generalizing heap with
    | nil => exact seeds
    | cons q rest ih =>
        refine ih (Function.update heap q (ensureRecordContext (heap q) call.ctx)) ?_
        by_cases same : r = q
        · subst same
          obtain ⟨context, before⟩ := seeds
          rw [Function.update_self, ensureRecordContext, before]
          split <;> exact ⟨_, rfl⟩
        · rwa [Function.update_of_ne same]
  exact fold call.records call.heap ⟨(call.heap r).context, rfl⟩

theorem seeded_topicPartition (r : RecordPtr) :
    (call.seeded r).topicPartition = (call.heap r).topicPartition := by
  obtain ⟨context, same⟩ := call.seeded_eq r
  rw [same]
  rfl

theorem seeded_timestamp (r : RecordPtr) : (call.seeded r).timestamp = (call.heap r).timestamp := by
  obtain ⟨context, same⟩ := call.seeded_eq r
  rw [same]

theorem singleRecordBatchEstimateBytes_seeded (r : RecordPtr) :
    singleRecordBatchEstimateBytes (call.seeded r) =
      singleRecordBatchEstimateBytes (call.heap r) := by
  obtain ⟨context, same⟩ := call.seeded_eq r
  rw [same]
  rfl

theorem tooLarge_eq (r : RecordPtr) : call.tooLarge r =
    decide (call.batchMaxBytes < singleRecordBatchEstimateBytes (call.heap r)) := by
  rw [tooLarge, singleRecordBatchEstimateBytes_seeded]

theorem errRecordTooLarge_seeded (r : RecordPtr) :
    errRecordTooLarge (call.seeded r) = errRecordTooLarge (call.heap r) := by
  rw [errRecordTooLarge, singleRecordBatchEstimateBytes_seeded]
  rfl

section Slots

variable {call} {r q : RecordPtr} {i : Nat}

theorem mem_okRecords :
    (r, i) ∈ call.okRecords ↔ call.records[i]? = some r ∧ call.tooLarge r = false := by
  rw [okRecords, List.mem_filter, List.mem_zipIdx_iff_getElem?]
  simp

/-- The slot of an accepted record is one of its positions. -/
theorem slot_mem (mem : (r, i) ∈ call.okRecords) : (r, call.slot r) ∈ call.okRecords := by
  have present : r ∈ call.indexOf :=
    Inserts.mem_insertAll.mpr (Or.inr (List.mem_map_of_mem (f := Prod.fst) mem))
  obtain ⟨last, found⟩ := Option.isSome_iff_exists.mp (AList.lookup_isSome.mpr present)
  rw [slot, found, Option.getD_some]
  rcases Inserts.mem_of_lookup_insertAll found with old | inside
  · rw [AList.lookup_empty] at old
    cases old
  · exact inside

theorem slot_inj (first : r ∈ call.okRecords.map Prod.fst)
    (second : q ∈ call.okRecords.map Prod.fst) (same : call.slot r = call.slot q) : r = q := by
  obtain ⟨⟨r, i⟩, inside, rfl⟩ := List.mem_map.mp first
  obtain ⟨⟨q, j⟩, inside', rfl⟩ := List.mem_map.mp second
  have here := (mem_okRecords.mp (slot_mem inside)).1
  have there := (mem_okRecords.mp (slot_mem inside')).1
  rw [same] at here
  exact Option.some.inj (here.symm.trans there)

/-- Without a repeated pointer every position is a slot. -/
theorem slot_eq_of_distinct (all : ¬ call.indexOf.keys.length < call.okRecords.length)
    (mem : (r, i) ∈ call.okRecords) : call.slot r = i := by
  have inside : call.indexOf.keys ⊆ call.okRecords.map Prod.fst := fun r known => by
    have present := Inserts.mem_insertAll.mp (AList.mem_keys.mp known)
    exact present.resolve_left (AList.notMem_empty r)
  have same := (call.indexOf.keys_nodup.subperm inside).perm_of_length_le
    (by rw [List.length_map]; omega)
  have found := (Inserts.lookup_insertAll_empty (same.nodup_iff.mp call.indexOf.keys_nodup)).mpr mem
  rw [slot, indexOf, found, Option.getD_some]

end Slots

/-- What a position should report, given the results that partition groups were completed
with. -/
def Reports (delivered : List (TopicPartition × ProduceResult)) (r : RecordPtr)
    (err : Option GoError) : Prop :=
  let tp := (call.heap r).topicPartition
  if call.batchMaxBytes < singleRecordBatchEstimateBytes (call.heap r) then
    err = some (errRecordTooLarge (call.heap r))
  else if (call.candidatesWithRoute tp).1 = [] then err = some (noAgentAssigned tp)
  else ∃ res, (tp, res) ∈ delivered ∧ err = recordErrFromResult res tp

theorem Reports.more {call : ProduceSyncCall} {delivered : List (TopicPartition × ProduceResult)}
    {r : RecordPtr} {err : Option GoError} (reports : call.Reports delivered r err)
    (new : TopicPartition × ProduceResult) : call.Reports (delivered ++ [new]) r err := by
  unfold Reports at reports ⊢
  dsimp only at reports ⊢
  split
  · rwa [if_pos ‹_›] at reports
  · rw [if_neg ‹_›] at reports
    split
    · rwa [if_pos ‹_›] at reports
    · rw [if_neg ‹_›] at reports
      obtain ⟨res, mem, same⟩ := reports
      exact ⟨res, List.mem_append_left _ mem, same⟩

/-- The values of a wait group of `n` after `m` calls of `Done`. -/
def countdown (n m : Nat) : List Int := (List.range (m + 1)).map fun j => (n : Int) - (j : Nat)

theorem getLast?_countdown (n m : Nat) : (countdown n m).getLast? = some ((n : Int) - m) := by
  rw [countdown, List.range_succ, List.map_append, List.map_singleton, List.getLast?_concat]

theorem wgDone_countdown (n m : Nat) :
    ProduceSync.wgDone (countdown n m) = countdown n (m + 1) := by
  rw [ProduceSync.wgDone, getLast?_countdown, Option.getD_some, countdown, countdown,
    List.range_succ (n := m + 1), List.map_append, List.map_singleton, Nat.cast_add, Nat.cast_one,
    Int.sub_sub]

end ProduceSyncCall

namespace ProduceSync

open ProduceSyncCall

variable {call : ProduceSyncCall} {s : ProduceSync}

/-- The results and the counter while the records in `unwritten` have no outcome yet. -/
structure Slots (call : ProduceSyncCall) (s : ProduceSync) (unwritten : List RecordPtr) : Prop where
  len : s.results.length = call.records.length
  large : ∀ (i : Nat) (r : RecordPtr), call.records[i]? = some r → call.tooLarge r = true →
    s.results[i]? = some ⟨some r, some (errRecordTooLarge (call.heap r))⟩
  settled : ∀ r ∈ call.okRecords.map Prod.fst, r ∉ unwritten →
    ∃ err, s.results[call.slot r]? = some ⟨some r, err⟩ ∧ call.Reports s.delivered r err
  counter : ∃ m, m + unwritten.length = call.okRecords.length ∧
    s.counter = countdown call.okRecords.length m

theorem Slots.perm {unwritten others : List RecordPtr} (slots : s.Slots call unwritten)
    (same : unwritten.Perm others) : s.Slots call others :=
  ⟨slots.len, slots.large,
    fun r ok absent => slots.settled r ok fun mem => absent (same.mem_iff.mp mem),
    same.length_eq ▸ slots.counter⟩

/-- One more record has its outcome. -/
theorem Slots.writeOne {r : RecordPtr} {rest : List RecordPtr} {err : Option GoError}
    (slots : s.Slots call (r :: rest)) (ok : r ∈ call.okRecords.map Prod.fst)
    (reports : call.Reports s.delivered r err) : (writeOne call err s r).Slots call rest := by
  obtain ⟨⟨r, i⟩, inside, rfl⟩ := List.mem_map.mp ok
  obtain ⟨here, fits⟩ := mem_okRecords.mp (slot_mem inside)
  have bound : call.slot r < s.results.length :=
    slots.len ▸ (List.getElem?_eq_some_iff.mp here).1
  refine ⟨by rw [ProduceSync.writeOne, List.length_set, slots.len], ?_, ?_, ?_⟩
  · intro j q at_j large
    have other : call.slot r ≠ j := fun same => by
      rw [same, at_j] at here
      rw [Option.some.inj here, fits] at large
      cases large
    rw [ProduceSync.writeOne, List.getElem?_set_ne other]
    exact slots.large j q at_j large
  · intro q okq absent
    by_cases same : q = r
    · subst same
      exact ⟨err, by rw [ProduceSync.writeOne, List.getElem?_set_self bound], reports⟩
    · have other : call.slot r ≠ call.slot q := fun equal => same (slot_inj okq ok equal.symm)
      obtain ⟨err', found, said⟩ := slots.settled q okq (by simp [same, absent])
      exact ⟨err', by rwa [ProduceSync.writeOne, List.getElem?_set_ne other], said⟩
  · obtain ⟨m, total, counted⟩ := slots.counter
    rw [List.length_cons] at total
    exact ⟨m + 1, by omega, by rw [ProduceSync.writeOne, counted, wgDone_countdown]⟩

theorem Slots.write {recs rest : List RecordPtr} {err : Option GoError}
    (slots : s.Slots call (recs ++ rest))
    (each : ∀ r ∈ recs, r ∈ call.okRecords.map Prod.fst ∧ call.Reports s.delivered r err) :
    (write call s recs err).Slots call rest := by
  induction recs generalizing s with
  | nil => exact slots
  | cons r recs ih =>
      obtain ⟨ok, reports⟩ := each r List.mem_cons_self
      exact ih (slots.writeOne ok reports) fun q mem => each q (List.mem_cons_of_mem _ mem)

section Copy

variable {results : List RecordResult} {r q : RecordPtr} {i j : Nat}

theorem length_copyOne (results : List RecordResult) (ri : RecordPtr × Nat) :
    (copyOne call results ri).length = results.length := by
  rw [copyOne]
  split
  · rw [List.length_set]
  · rfl

theorem getElem?_copyOne_ne (other : j ≠ i) : (copyOne call results (r, j))[i]? = results[i]? := by
  rw [copyOne]
  split
  · rw [List.getElem?_set_ne other]
  · rfl

theorem getElem?_copyOne_self (bound : j < results.length) (slot : call.slot r < results.length) :
    (copyOne call results (r, j))[j]? = results[call.slot r]? := by
  rw [copyOne]
  split
  · rw [List.getElem?_set_self bound, List.getElem?_eq_getElem slot, Option.getD_some]
  · rename_i same
    rw [show j = call.slot r from not_not.mp same]

/-- The slots are only read. -/
theorem getElem?_copyOne_slot (ok : r ∈ call.okRecords.map Prod.fst)
    (mem : (q, j) ∈ call.okRecords) :
    (copyOne call results (q, j))[call.slot r]? = results[call.slot r]? := by
  by_cases same : j = call.slot r
  · obtain ⟨⟨r, i⟩, inside, rfl⟩ := List.mem_map.mp ok
    have here := (mem_okRecords.mp (slot_mem inside)).1
    rw [← same, (mem_okRecords.mp mem).1] at here
    rw [Option.some.inj here, copyOne, if_neg (not_not.mpr same)]
  · exact getElem?_copyOne_ne same

theorem length_foldl_copyOne (pairs : List (RecordPtr × Nat)) (results : List RecordResult) :
    (pairs.foldl (copyOne call) results).length = results.length := by
  induction pairs generalizing results with
  | nil => rfl
  | cons ri rest ih => rw [List.foldl_cons, ih, length_copyOne]

theorem getElem?_foldl_copyOne_of_notMem {pairs : List (RecordPtr × Nat)}
    (absent : i ∉ pairs.map Prod.snd) : (pairs.foldl (copyOne call) results)[i]? = results[i]? := by
  induction pairs generalizing results with
  | nil => rfl
  | cons ri rest ih =>
      obtain ⟨q, j⟩ := ri
      rw [List.map_cons, List.mem_cons, not_or] at absent
      rw [List.foldl_cons, ih absent.2, getElem?_copyOne_ne (Ne.symm absent.1)]

theorem getElem?_foldl_copyOne {pairs : List (RecordPtr × Nat)}
    (len : results.length = call.records.length) (inside : pairs ⊆ call.okRecords)
    (mem : (r, i) ∈ pairs) :
    (pairs.foldl (copyOne call) results)[i]? = results[call.slot r]? := by
  induction pairs generalizing results with
  | nil => cases mem
  | cons ri rest ih =>
      obtain ⟨q, j⟩ := ri
      have first : (q, j) ∈ call.okRecords := inside List.mem_cons_self
      have others : rest ⊆ call.okRecords := fun x later => inside (List.mem_cons_of_mem _ later)
      rw [List.foldl_cons]
      by_cases later : (r, i) ∈ rest
      · rw [ih (by rw [length_copyOne, len]) others later]
        exact getElem?_copyOne_slot (List.mem_map_of_mem (f := Prod.fst) (others later)) first
      · obtain ⟨rfl, rfl⟩ : r = q ∧ i = j :=
          Prod.mk.inj ((List.mem_cons.mp mem).resolve_right later)
        -- a later position is another one, as this one holds `r`
        have absent : i ∉ rest.map Prod.snd := fun again => by
          obtain ⟨⟨q, i⟩, mem', rfl⟩ := List.mem_map.mp again
          have same := (mem_okRecords.mp first).1.symm.trans (mem_okRecords.mp (others mem')).1
          exact later (Option.some.inj same ▸ mem')
        have bound {k : Nat} (ok : (r, k) ∈ call.okRecords) : k < results.length :=
          len ▸ (List.getElem?_eq_some_iff.mp (mem_okRecords.mp ok).1).1
        rw [getElem?_foldl_copyOne_of_notMem absent,
          getElem?_copyOne_self (bound first) (bound (slot_mem first))]

/-- The deferred copy gives every accepted position the outcome in its record's slot. -/
theorem getElem?_copyRepeated (len : results.length = call.records.length)
    (mem : (r, i) ∈ call.okRecords) :
    (copyRepeated call results)[i]? = results[call.slot r]? := by
  rw [copyRepeated]
  split
  · exact getElem?_foldl_copyOne len (fun _ => id) mem
  · rename_i distinct
    rw [slot_eq_of_distinct distinct mem]

theorem getElem?_copyRepeated_of_notMem (absent : i ∉ call.okRecords.map Prod.snd) :
    (copyRepeated call results)[i]? = results[i]? := by
  rw [copyRepeated]
  split
  · exact getElem?_foldl_copyOne_of_notMem absent
  · rfl

theorem length_copyRepeated (call : ProduceSyncCall) (results : List RecordResult) :
    (copyRepeated call results).length = results.length := by
  rw [copyRepeated]
  split
  · exact length_foldl_copyOne _ results
  · rfl

end Copy

/-- With every outcome written, the copy leaves the right report at every position. -/
theorem Slots.reports (slots : s.Slots call []) {i : Nat} {r : RecordPtr}
    (here : call.records[i]? = some r) :
    ∃ err, (copyRepeated call s.results)[i]? = some ⟨some r, err⟩ ∧
      call.Reports s.delivered r err := by
  by_cases large : call.tooLarge r = true
  · have absent : i ∉ call.okRecords.map Prod.snd := fun mem => by
      obtain ⟨⟨q, i⟩, inside, rfl⟩ := List.mem_map.mp mem
      obtain ⟨there, fits⟩ := mem_okRecords.mp inside
      rw [Option.some.inj (there.symm.trans here), large] at fits
      cases fits
    refine ⟨_, (getElem?_copyRepeated_of_notMem absent).trans (slots.large i r here large), ?_⟩
    rw [tooLarge_eq, decide_eq_true_eq] at large
    rw [Reports, if_pos large]
  · have mem : (r, i) ∈ call.okRecords := mem_okRecords.mpr ⟨here, by simpa using large⟩
    rw [getElem?_copyRepeated slots.len mem]
    exact slots.settled r (List.mem_map_of_mem (f := Prod.fst) mem) List.not_mem_nil

theorem fireUnbuffered_eq (len : s.results.length = call.records.length)
    (quiet : s.firedUnbuffered = []) :
    (fireUnbuffered call s).firedUnbuffered =
      if call.hasProduceHooks then call.records.zip (s.results.map (·.err)) else [] := by
  rw [fireUnbuffered]
  split
  · refine List.ext_getElem (by simp [len]) fun i left right => ?_
    have bound : i < s.results.length := by
      rw [List.length_map, List.length_zipIdx] at left
      omega
    simp [List.getElem?_eq_getElem bound]
  · exact quiet

/-- The records whose outcome a completion still has to write. -/
def unwritten (s : ProduceSync) : List RecordPtr :=
  s.outstanding.flatMap (·.records) ++ s.writing.flatMap (·.records)

end ProduceSync

namespace ProduceSyncCall

variable (call : ProduceSyncCall)

/-- The accepted records of one partition that has an agent. -/
structure Routes (tp : TopicPartition) (records : List RecordPtr) : Prop where
  agent : (call.candidatesWithRoute tp).1 ≠ []
  each : ∀ r ∈ records, r ∈ call.okRecords.map Prod.fst ∧ (call.heap r).topicPartition = tp

/-- A record rejected before dispatch. -/
def Rejected (r : RecordPtr) : Prop :=
  call.batchMaxBytes < singleRecordBatchEstimateBytes (call.heap r) ∨
    (call.candidatesWithRoute (call.heap r).topicPartition).1 = []

variable {call} {tp : TopicPartition} {r : RecordPtr}

theorem fits_of_mem_okRecords (ok : r ∈ call.okRecords.map Prod.fst) :
    ¬ call.batchMaxBytes < singleRecordBatchEstimateBytes (call.heap r) := by
  obtain ⟨⟨r, i⟩, inside, rfl⟩ := List.mem_map.mp ok
  have fits := (mem_okRecords.mp inside).2
  rwa [tooLarge_eq, decide_eq_false_iff_not] at fits

theorem Routes.not_rejected {records : List RecordPtr} (routes : call.Routes tp records)
    (mem : r ∈ records) : ¬ call.Rejected r := by
  obtain ⟨ok, same⟩ := routes.each r mem
  rintro (large | nobody)
  · exact fits_of_mem_okRecords ok large
  · exact routes.agent (same ▸ nobody)

theorem Routes.reports {records : List RecordPtr} (routes : call.Routes tp records)
    (mem : r ∈ records) {delivered : List (TopicPartition × ProduceResult)} {res : ProduceResult}
    (got : (tp, res) ∈ delivered) : call.Reports delivered r (recordErrFromResult res tp) := by
  obtain ⟨ok, rfl⟩ := routes.each r mem
  rw [Reports, if_neg (fits_of_mem_okRecords ok), if_neg routes.agent]
  exact ⟨res, got, rfl⟩

theorem reports_noAgent (ok : r ∈ call.okRecords.map Prod.fst)
    (nobody : (call.candidatesWithRoute (call.heap r).topicPartition).1 = [])
    (delivered : List (TopicPartition × ProduceResult)) :
    call.Reports delivered r (some (noAgentAssigned (call.heap r).topicPartition)) := by
  rw [Reports, if_neg (fits_of_mem_okRecords ok), if_pos nobody]

/-- Stamping writes only the records of the groups. -/
theorem stamped_of_notMem {heap : RecordHeap} {groups : List RoutedGroup}
    (absent : r ∉ groups.flatMap (·.records)) : call.stamped heap groups r = heap r := by
  rw [stamped]
  generalize groups.flatMap (·.records) = records at absent ⊢
  induction records generalizing heap with
  | nil => rfl
  | cons q rest ih =>
      rw [List.mem_cons, not_or] at absent
      rw [List.foldl_cons, ih absent.2, Function.update_of_ne absent.1]

end ProduceSyncCall

namespace ProduceSync

open ProduceSyncCall

variable {call : ProduceSyncCall} {s : ProduceSync}

/-- A call in `wg.Wait`. -/
structure Waiting (call : ProduceSyncCall) (s : ProduceSync) : Prop where
  accepted : call.okRecords ≠ []
  slots : s.Slots call s.unwritten
  outstanding : ∀ g ∈ s.outstanding, call.Routes g.tp g.records ∧ g.records ≠ []
  writing : ∀ w ∈ s.writing, call.Routes w.tp w.records ∧
    ∃ res, (w.tp, res) ∈ s.delivered ∧ w.err = recordErrFromResult res w.tp
  once : (s.delivered.map Prod.fst ++ s.outstanding.map (·.tp)).Nodup
  stamps : ∀ r ∈ call.records, call.Rejected r → (s.heap r).timestamp = (call.heap r).timestamp
  quiet : s.firedUnbuffered = []

/-- Every position has its report. -/
structure Settled (call : ProduceSyncCall) (s : ProduceSync) : Prop where
  len : s.results.length = call.records.length
  each : ∀ (i : Nat) (r : RecordPtr), call.records[i]? = some r →
    ∃ err, s.results[i]? = some ⟨some r, err⟩ ∧ call.Reports s.delivered r err
  once : (s.delivered.map Prod.fst).Nodup
  counter : s.counter =
    if call.okRecords = [] then [] else countdown call.okRecords.length call.okRecords.length
  stamps : ∀ r ∈ call.records, call.Rejected r → (s.heap r).timestamp = (call.heap r).timestamp
  idle : s.unwritten = []

/-- A call that has returned. -/
structure Finished (call : ProduceSyncCall) (s : ProduceSync) : Prop extends s.Settled call where
  hooks : s.firedUnbuffered =
    if call.hasProduceHooks then call.records.zip (s.results.map (·.err)) else []

/-- The states of a call. -/
def Reached (call : ProduceSyncCall) (s : ProduceSync) : Prop :=
  if s.returned then s.Finished call else s.Waiting call

theorem unwritten_eq_nil_iff (waiting : s.Waiting call) :
    s.counter.getLast? = some 0 ↔ s.unwritten = [] := by
  obtain ⟨m, total, counted⟩ := waiting.slots.counter
  rw [counted, getLast?_countdown, Option.some_inj, ← List.length_eq_zero_iff]
  omega

theorem Settled.fire (settled : s.Settled call) (quiet : s.firedUnbuffered = []) :
    Finished call { fireUnbuffered call s with returned := true } := by
  have fired := fireUnbuffered_eq settled.len quiet
  have frame : ∃ fired, fireUnbuffered call s = { s with firedUnbuffered := fired } := by
    rw [fireUnbuffered]
    split <;> exact ⟨_, rfl⟩
  obtain ⟨_, same⟩ := frame
  rw [same] at fired ⊢
  exact ⟨⟨settled.len, settled.each, settled.once, settled.counter, settled.stamps, settled.idle⟩,
    fired⟩

theorem Waiting.leave (waiting : s.Waiting call) (idle : s.unwritten = []) :
    (leave call s).Finished call := by
  have slots : s.Slots call [] := idle ▸ waiting.slots
  refine Settled.fire ⟨(length_copyRepeated call s.results).trans slots.len,
    fun i r here => slots.reports here, (List.nodup_append.mp waiting.once).1, ?_,
    waiting.stamps, idle⟩ waiting.quiet
  obtain ⟨m, total, counted⟩ := slots.counter
  obtain rfl : m = call.okRecords.length := total
  rw [if_neg waiting.accepted]
  exact counted

theorem unwritten_complete {i : Nat} {g : RoutedGroup} (here : s.outstanding[i]? = some g)
    (res : ProduceResult) : s.unwritten.Perm (s.complete i g res).unwritten := by
  obtain ⟨bound, rfl⟩ := List.getElem?_eq_some_iff.mp here
  have moved := (List.getElem_cons_eraseIdx_perm bound).symm
  refine ((moved.flatMap_right (·.records)).append_right _).trans ?_
  simp only [unwritten, complete, List.flatMap_cons, List.flatMap_append, List.flatMap_nil,
    List.append_nil, List.append_assoc]
  exact List.perm_append_comm.trans (by rw [List.append_assoc])

theorem Waiting.complete {i : Nat} {g : RoutedGroup} (waiting : s.Waiting call)
    (here : s.outstanding[i]? = some g) (res : ProduceResult) :
    (s.complete i g res).Waiting call := by
  have slots := waiting.slots.perm (unwritten_complete here res)
  refine ⟨waiting.accepted, ⟨slots.len, slots.large, fun r ok absent => ?_, slots.counter⟩,
    fun g mem => waiting.outstanding g (List.mem_of_mem_eraseIdx mem), fun w mem => ?_, ?_,
    waiting.stamps, waiting.quiet⟩
  · obtain ⟨err, found, reports⟩ := slots.settled r ok absent
    exact ⟨err, found, reports.more _⟩
  · rcases List.mem_append.mp mem with old | new
    · obtain ⟨routed, res', got, err⟩ := waiting.writing w old
      exact ⟨routed, res', List.mem_append_left _ got, err⟩
    · obtain rfl := List.mem_singleton.mp new
      exact ⟨(waiting.outstanding g (List.mem_of_getElem? here)).1, res,
        List.mem_append_right _ List.mem_cons_self, rfl⟩
  · obtain ⟨bound, rfl⟩ := List.getElem?_eq_some_iff.mp here
    have moved := (List.getElem_cons_eraseIdx_perm bound).symm
    refine (List.Perm.nodup_iff ?_).mp waiting.once
    rw [ProduceSync.complete, List.map_append, List.append_assoc]
    exact (moved.map _).append_left _

theorem unwritten_write (call : ProduceSyncCall) {j : Nat} {tp : TopicPartition} {r : RecordPtr}
    {rest : List RecordPtr} {err : Option GoError}
    (here : s.writing[j]? = some ⟨tp, r :: rest, err⟩) :
    s.unwritten.Perm
      (r :: unwritten { writeOne call err s r with writing := s.writing.set j ⟨tp, rest, err⟩ }) := by
  obtain ⟨bound, entry⟩ := List.getElem?_eq_some_iff.mp here
  have before : s.writing = s.writing.take j ++ ⟨tp, r :: rest, err⟩ :: s.writing.drop (j + 1) := by
    rw [← entry, List.getElem_cons_drop, List.take_append_drop]
  rw [unwritten, unwritten, List.set_eq_take_append_cons_drop, if_pos bound]
  nth_rewrite 1 [before]
  simp only [writeOne, List.flatMap_append, List.flatMap_cons, List.cons_append]
  rw [← List.append_assoc, ← List.append_assoc]
  exact List.perm_middle

theorem Waiting.write {j : Nat} {tp : TopicPartition} {r : RecordPtr} {rest : List RecordPtr}
    {err : Option GoError} (waiting : s.Waiting call)
    (here : s.writing[j]? = some ⟨tp, r :: rest, err⟩) :
    Waiting call { writeOne call err s r with writing := s.writing.set j ⟨tp, rest, err⟩ } := by
  obtain ⟨routes, res, got, same⟩ := waiting.writing _ (List.mem_of_getElem? here)
  have slots := (waiting.slots.perm (unwritten_write call here)).writeOne
    (routes.each r List.mem_cons_self).1 (same ▸ routes.reports List.mem_cons_self got)
  refine ⟨waiting.accepted, ⟨slots.len, slots.large, slots.settled, slots.counter⟩,
    waiting.outstanding, fun w mem => ?_, waiting.once, waiting.stamps, waiting.quiet⟩
  rcases List.mem_or_eq_of_mem_set mem with old | rfl
  · exact waiting.writing w old
  · exact ⟨⟨routes.agent, fun q inside => routes.each q (List.mem_cons_of_mem _ inside)⟩,
      res, got, same⟩

/-- What is left to do: completions, writes and the return. -/
def remaining (s : ProduceSync) : Nat :=
  if s.returned then 0 else s.outstanding.length + s.unwritten.length + 1

theorem remaining_of_running (running : s.returned = false) :
    s.remaining = s.outstanding.length + s.unwritten.length + 1 := by
  rw [remaining, running, if_neg Bool.false_ne_true]

theorem Waiting.of_reached (reached : s.Reached call) (running : s.returned = false) :
    s.Waiting call := by
  rwa [Reached, running, if_neg Bool.false_ne_true] at reached

theorem Finished.of_reached (reached : s.Reached call) (returned : s.returned = true) :
    s.Finished call := by
  rwa [Reached, if_pos returned] at reached

theorem Waiting.reached (waiting : s.Waiting call) (running : s.returned = false) :
    s.Reached call := by
  rwa [Reached, running, if_neg Bool.false_ne_true]

/-- A completion with records left belongs to a call that has not returned. -/
theorem returned_of_writing {j : Nat} {tp : TopicPartition} {r : RecordPtr} {rest : List RecordPtr}
    {err : Option GoError} (reached : s.Reached call)
    (here : s.writing[j]? = some ⟨tp, r :: rest, err⟩) : s.returned = false := by
  refine Bool.eq_false_iff.mpr fun returned => ?_
  have idle := (Finished.of_reached reached returned).idle
  have left := (unwritten_write call here).length_eq
  rw [idle, List.length_cons] at left
  cases left

theorem reached_step {s' : ProduceSync} {a : ProduceSyncAction} (reached : s.Reached call)
    (stepped : step call s a = some s') : s'.Reached call ∧ s'.remaining < s.remaining := by
  cases a with
  | done i res =>
      rw [step] at stepped
      split at stepped
      · cases stepped
      · rename_i running
        rw [Bool.not_eq_true] at running
        obtain ⟨g, here, rfl⟩ := Option.map_eq_some_iff.mp stepped
        refine ⟨((Waiting.of_reached reached running).complete here res).reached running, ?_⟩
        have bound := (List.getElem?_eq_some_iff.mp here).1
        have fewer : (s.complete i g res).outstanding.length = s.outstanding.length - 1 :=
          List.length_eraseIdx_of_lt bound
        have same := (unwritten_complete here res).length_eq
        rw [remaining_of_running running, remaining_of_running (s := s.complete i g res) running]
        omega
  | write j =>
      rw [step] at stepped
      split at stepped
      · rename_i tp r rest err here
        obtain rfl := Option.some.inj stepped
        have running := returned_of_writing reached here
        refine ⟨((Waiting.of_reached reached running).write here).reached running, ?_⟩
        have fewer := (unwritten_write call here).length_eq
        rw [List.length_cons] at fewer
        rw [remaining_of_running running, remaining_of_running (by exact running), fewer]
        exact Nat.lt_succ_self _
      · cases stepped
  | wake =>
      rw [step] at stepped
      split at stepped
      · rename_i awake
        obtain rfl := Option.some.inj stepped
        have waiting := Waiting.of_reached reached awake.1
        refine ⟨waiting.leave ((unwritten_eq_nil_iff waiting).mp awake.2), ?_⟩
        rw [remaining_of_running awake.1]
        exact Nat.succ_pos _
      · cases stepped

/-- A call that waits can go on. -/
theorem Waiting.progress (waiting : s.Waiting call) (running : s.returned = false) :
    ∃ a s', step call s a = some s' := by
  by_cases owed : s.outstanding = []
  · by_cases idle : s.unwritten = []
    · refine ⟨.wake, ProduceSync.leave call s, ?_⟩
      rw [step, if_pos ⟨running, (unwritten_eq_nil_iff waiting).mpr idle⟩]
    · obtain ⟨r, mem⟩ := List.exists_mem_of_ne_nil _ idle
      rw [unwritten, owed, List.flatMap_nil, List.nil_append, List.mem_flatMap] at mem
      obtain ⟨⟨tp, records, err⟩, inside, left⟩ := mem
      obtain ⟨first, rest, rfl⟩ := List.exists_cons_of_ne_nil (List.ne_nil_of_mem left)
      obtain ⟨j, here⟩ := List.getElem?_of_mem inside
      refine ⟨.write j, { writeOne call err s first with
        writing := s.writing.set j ⟨tp, rest, err⟩ }, ?_⟩
      rw [step, here]
  · obtain ⟨g, rest, cons⟩ := List.exists_cons_of_ne_nil owed
    refine ⟨.done 0 {}, s.complete 0 g {}, ?_⟩
    rw [step, running, if_neg Bool.false_ne_true, cons, List.getElem?_cons_zero, Option.map_some]

section Start

theorem write_frame (call : ProduceSyncCall) (records : List RecordPtr) (err : Option GoError)
    (s : ProduceSync) :
    ∃ results counter, write call s records err = { s with results, counter } := by
  induction records generalizing s with
  | nil => exact ⟨s.results, s.counter, rfl⟩
  | cons r rest ih => exact ih (writeOne call err s r)

/-- The rejections are written before anything is dispatched. -/
theorem Slots.rejectAll {groups : List RejectedGroup} {rest : List RecordPtr}
    (slots : s.Slots call (groups.flatMap (·.records) ++ rest))
    (each : ∀ g ∈ groups, ∀ r ∈ g.records,
      r ∈ call.okRecords.map Prod.fst ∧ call.Reports s.delivered r (some g.found.1)) :
    ∃ results counter,
      groups.foldl (fun s g => ProduceSync.write call s g.records (some g.found.1)) s =
        { s with results, counter } ∧
      Slots call { s with results, counter } rest := by
  induction groups generalizing s with
  | nil => exact ⟨s.results, s.counter, rfl, slots⟩
  | cons g groups ih =>
      rw [List.flatMap_cons, List.append_assoc] at slots
      have wrote := slots.write (each g List.mem_cons_self)
      obtain ⟨results, counter, frame⟩ := write_frame call g.records (some g.found.1) s
      rw [frame] at wrote
      rw [List.foldl_cons, frame]
      exact ih wrote fun g mem => each g (List.mem_cons_of_mem _ mem)

theorem getElem?_sized {i : Nat} {r : RecordPtr} (here : call.records[i]? = some r)
    (large : call.tooLarge r = true) :
    (sized call).results[i]? = some ⟨some r, some (errRecordTooLarge (call.heap r))⟩ := by
  rw [sized, List.getElem?_map, here, Option.map_some, if_pos large, errRecordTooLarge_seeded]

/-- No accepted record has an outcome before the rejections are written. -/
theorem slots_sized (call : ProduceSyncCall) :
    Slots call { sized call with counter := [(call.okRecords.length : Int)] }
      (call.okRecords.map Prod.fst) :=
  ⟨List.length_map _, fun _ _ here large => getElem?_sized here large,
    fun _ ok absent => absurd ok absent, 0, by rw [List.length_map, Nat.zero_add], by
      simp [countdown]⟩

theorem Slots.dispatch {groups : List RoutedGroup}
    (slots : s.Slots call (groups.flatMap (·.records))) (accepted : call.okRecords ≠ [])
    (routes : ∀ g ∈ groups, call.Routes g.tp g.records ∧ g.records ≠ [])
    (once : (groups.map (·.tp)).Nodup)
    (fresh : s.writing = [] ∧ s.delivered = [] ∧ s.firedUnbuffered = [])
    (heap : s.heap = call.seeded) :
    Waiting call { s with heap := call.stamped s.heap groups, outstanding := groups } := by
  refine ⟨accepted, ?_, routes, ?_, ?_, fun r _ rejected => ?_, fresh.2.2⟩
  · rw [unwritten, fresh.1, List.flatMap_nil, List.append_nil]
    exact ⟨slots.len, slots.large, slots.settled, slots.counter⟩
  · rw [fresh.1]
    exact fun w mem => absurd mem List.not_mem_nil
  · rw [fresh.2.1]
    exact once
  · have absent : r ∉ groups.flatMap (·.records) := fun mem => by
      obtain ⟨g, inside, mem⟩ := List.mem_flatMap.mp mem
      exact (routes g inside).1.not_rejected mem rejected
    dsimp only
    rw [stamped_of_notMem absent, heap, seeded_timestamp]

theorem settled_sized (nothing : call.okRecords = []) : (sized call).Settled call := by
  refine ⟨List.length_map _, fun i r here => ?_, List.nodup_nil, (if_pos nothing).symm,
    fun r _ _ => call.seeded_timestamp r, rfl⟩
  have large : call.tooLarge r = true := by
    by_contra fits
    have mem : (r, i) ∈ call.okRecords := mem_okRecords.mpr ⟨here, by simpa using fits⟩
    rw [nothing] at mem
    cases mem
  refine ⟨_, getElem?_sized here large, ?_⟩
  rw [tooLarge_eq, decide_eq_true_eq] at large
  rw [Reports, if_pos large]

/-- The call once the rejections are written and the groups handed to the buffer. -/
theorem waiting_dispatch {routing : Routing} (accepted : call.okRecords ≠ [])
    (routed : routing.Routed call.candidatesWithRoute call.seeded (call.okRecords.map Prod.fst)) :
    ∃ results counter,
      routing.rejected.foldl (fun s g => write call s g.records (some g.found.1))
          { sized call with counter := [(call.okRecords.length : Int)] } =
        { sized call with results, counter } ∧
      Waiting call
        { sized call with
          results, counter
          heap := call.stamped (sized call).heap routing.groups
          outstanding := routing.groups } := by
  have ok {r : RecordPtr} (mem : r ∈ routing.groups.flatMap (·.records) ++
      routing.rejected.flatMap (·.records)) : r ∈ call.okRecords.map Prod.fst :=
    routed.all.mem_iff.mp mem
  have slots := (slots_sized call).perm (routed.all.symm.trans List.perm_append_comm)
  obtain ⟨results, counter, wrote, slots⟩ := slots.rejectAll fun g mem r inside => by
    obtain ⟨same, nobody, err⟩ := routed.rejected g mem
    have accepted := ok (List.mem_append_right _ (List.mem_flatMap.mpr ⟨g, mem, inside⟩))
    have tp := same r inside
    rw [seeded_topicPartition] at tp
    rw [err, ← tp]
    exact ⟨accepted, reports_noAgent accepted (tp ▸ nobody) _⟩
  refine ⟨results, counter, wrote, slots.dispatch accepted (fun g mem => ?_)
    (List.nodup_append.mp routed.distinct).1 ⟨rfl, rfl, rfl⟩ rfl⟩
  obtain ⟨same, filled, others, answer⟩ := routed.groups g mem
  refine ⟨⟨by rw [answer]; exact List.cons_ne_nil _ _, fun r inside => ⟨?_, ?_⟩⟩, filled⟩
  · exact ok (List.mem_append_left _ (List.mem_flatMap.mpr ⟨g, mem, inside⟩))
  · rw [← seeded_topicPartition]
    exact same r inside

theorem reached_start (call : ProduceSyncCall) : (start call).Reached call := by
  unfold start
  split
  · rename_i none
    have nothing : call.okRecords = [] := by
      rw [okRecords, none]
      rfl
    refine ⟨⟨by rw [none]; rfl, fun i r here => ?_, List.nodup_nil, (if_pos nothing).symm,
      fun _ _ _ => rfl, rfl⟩, by simp [none]⟩
    rw [none] at here
    cases here
  · split
    · rename_i nothing
      exact (settled_sized nothing).fire rfl
    · rename_i accepted
      obtain ⟨results, counter, wrote, waiting⟩ := waiting_dispatch accepted
        (routed_routeRecords call.candidatesWithRoute call.seeded (call.okRecords.map Prod.fst))
      dsimp only
      rw [wrote]
      split
      · rename_i unrouted
        rw [unrouted] at waiting
        exact waiting.leave rfl
      · exact waiting.reached rfl

end Start

theorem Waiting.length_unwritten (waiting : s.Waiting call) :
    s.unwritten.length ≤ call.records.length := by
  obtain ⟨m, total, -⟩ := waiting.slots.counter
  have fewer : call.okRecords.length ≤ call.records.length := by
    rw [okRecords, ← List.length_zipIdx (l := call.records) (i := 0)]
    exact List.length_filter_le _ _
  omega

theorem Waiting.length_outstanding (waiting : s.Waiting call) :
    s.outstanding.length ≤ s.unwritten.length := by
  have each : ∀ n ∈ s.outstanding.map (·.records.length), 1 ≤ n := fun n mem => by
    obtain ⟨g, inside, rfl⟩ := List.mem_map.mp mem
    exact List.length_pos_iff.mpr (waiting.outstanding g inside).2
  have total := List.length_le_sum_of_one_le _ each
  rw [List.length_map] at total
  rw [unwritten, List.length_append, List.length_flatMap]
  omega

theorem remaining_le (reached : s.Reached call) : s.remaining ≤ 2 * call.records.length + 1 := by
  cases returned : s.returned with
  | true =>
      rw [remaining, if_pos returned]
      exact Nat.zero_le _
  | false =>
      have waiting := Waiting.of_reached reached returned
      have written := waiting.length_unwritten
      have owed := waiting.length_outstanding
      rw [remaining_of_running returned]
      omega

theorem counter_nonneg (reached : s.Reached call) : ∀ v ∈ s.counter, 0 ≤ v := by
  have down {n m : Nat} (le : m ≤ n) : ∀ v ∈ countdown n m, 0 ≤ v := fun v mem => by
    obtain ⟨j, inside, rfl⟩ := List.mem_map.mp mem
    rw [List.mem_range] at inside
    omega
  cases returned : s.returned with
  | true =>
      rw [(Finished.of_reached reached returned).counter]
      split
      · exact fun v mem => absurd mem List.not_mem_nil
      · exact down (Nat.le_refl _)
  | false =>
      obtain ⟨m, total, counted⟩ := (Waiting.of_reached reached returned).slots.counter
      rw [counted]
      exact down (by omega)

theorem stamps_of_reached (reached : s.Reached call) :
    ∀ r ∈ call.records, call.Rejected r → (s.heap r).timestamp = (call.heap r).timestamp := by
  cases returned : s.returned with
  | true => exact (Finished.of_reached reached returned).stamps
  | false => exact (Waiting.of_reached reached returned).stamps

end ProduceSync

theorem ProduceSyncCall.count_countdown (n : Nat) : (countdown n n).count 0 = 1 := by
  have distinct : (countdown n n).Nodup :=
    List.nodup_range.map fun i j same => by
      have same : (n : Int) - i = n - j := same
      omega
  refine List.count_eq_one_of_mem distinct (List.mem_map.mpr ⟨n, ?_, Int.sub_self _⟩)
  exact List.mem_range.mpr (Nat.lt_succ_self n)

/-- A call waits only as long as completions are owed, and returns with the right report at
every position. `Reports` tells a record over `BatchMaxBytes`, one whose partition has no
candidate and one whose group was completed apart. -/
theorem produceSync_reports_each_position (call : ProduceSyncCall)
    (actions : List ProduceSyncAction) (s : ProduceSync)
    (runs : Machine.run (ProduceSync.step call) (ProduceSync.start call) actions = some s) :
    (s.returned = false → ∃ a s', ProduceSync.step call s a = some s') ∧
    actions.length ≤ 2 * call.records.length + 1 ∧
    (∀ v ∈ s.counter, 0 ≤ v) ∧
    (∀ r ∈ call.records, call.Rejected r →
      (s.heap r).timestamp = (call.heap r).timestamp) ∧
    (s.returned = true →
      s.results.length = call.records.length ∧
      (∀ (i : Nat) (r : RecordPtr), call.records[i]? = some r →
        ∃ err, s.results[i]? = some ⟨some r, err⟩ ∧ call.Reports s.delivered r err) ∧
      (s.delivered.map Prod.fst).Nodup ∧
      (call.okRecords ≠ [] → s.counter.count 0 = 1 ∧ s.counter.getLast? = some 0) ∧
      s.firedUnbuffered =
        if call.hasProduceHooks then call.records.zip (s.results.map (·.err)) else []) := by
  have reached := Machine.invariant_run_all (ProduceSync.Reached call)
    (fun _ _ _ before stepped => (ProduceSync.reached_step before stepped).1)
    (ProduceSync.reached_start call) runs
  have length := Machine.length_run_le (ProduceSync.Reached call) ProduceSync.remaining
    (fun _ _ _ before stepped => (ProduceSync.reached_step before stepped).1)
    (fun _ _ _ before stepped => (ProduceSync.reached_step before stepped).2)
    (ProduceSync.reached_start call) runs
  have most := ProduceSync.remaining_le (ProduceSync.reached_start call)
  refine ⟨fun running => (ProduceSync.Waiting.of_reached reached running).progress running,
    by omega, ProduceSync.counter_nonneg reached, ProduceSync.stamps_of_reached reached,
    fun returned => ?_⟩
  have finished := ProduceSync.Finished.of_reached reached returned
  refine ⟨finished.len, finished.each, finished.once, fun accepted => ?_, finished.hooks⟩
  rw [finished.counter, if_neg accepted]
  exact ⟨ProduceSyncCall.count_countdown _, by
    rw [ProduceSyncCall.getLast?_countdown, Int.sub_self]⟩

/-- One record twice, one over the limit and one whose partition has no agent. -/
def mixedCall : ProduceSyncCall :=
  { records := [0, 1, 0, 2]
    heap := fun r =>
      if r = 1 then { topic := "t", value := some (List.replicate 40 0) }
      else if r = 2 then { topic := "u" }
      else { topic := "t" }
    ctx := ⟨0, true⟩
    now := .unix 1
    batchMaxBytes := 100
    hasProduceHooks := true
    candidatesWithRoute := fun tp =>
      if tp.topic = "t" then ([{ nodeID := 1 }], .leader) else ([], .missUnknownTopic) }

theorem produceSync_reports_each_position_mixed :
    ∃ s, Machine.run (ProduceSync.step mixedCall) (ProduceSync.start mixedCall)
        [.done 0 {}, .write 0, .write 0, .wake] = some s ∧
      s.returned = true ∧ s.counter.count 0 = 1 ∧ mixedCall.Rejected 1 ∧
      ∃ err, s.results[2]? = some ⟨some 0, err⟩ ∧ mixedCall.Reports s.delivered 0 err := by
  have ran : (Machine.run (ProduceSync.step mixedCall) (ProduceSync.start mixedCall)
      [.done 0 {}, .write 0, .write 0, .wake]).any (·.returned) = true := by decide +kernel
  obtain ⟨s, runs, returned⟩ := (Option.any_eq_true _ _).mp ran
  have reports := (produceSync_reports_each_position mixedCall _ s runs).2.2.2.2 returned
  exact ⟨s, runs, returned, (reports.2.2.2.1 (by decide +kernel)).1, Or.inl (by decide +kernel),
    reports.2.1 2 0 rfl⟩

end Warpstream
