import Warpstream.ProduceRequest

set_option autoImplicit false

/- `KafkaDirectProducer.ProduceSync`: one attempt on one agent, from the encoded partitions
to the result. -/
namespace Warpstream

/-- What `Broker.Request` comes back with: a produce response, a response of another type, or
an error. -/
inductive BrokerReply where
  | response (resp : Kmsg.ProduceResponse)
  | otherType (name : String)
  | failed (err : GoError)
deriving DecidableEq

def unexpectedResponseErr (name : String) : GoError :=
  { node := { text := "unexpected response type " ++ name } }

/-- The end of the method. `hookErr` is the error of the attempt's context once
`onProduceResponse` has returned, nil without such a hook. -/
def BrokerReply.result (reply : BrokerReply) (hookErr : Option GoError) : ProduceResult :=
  match reply, hookErr with
  | .otherType name, _ => { err := some (unexpectedResponseErr name) }
  | _, some ctxErr => { err := some ctxErr }
  | .failed err, none => { err := some (GoError.wireError err) }
  | .response resp, none => { resp := some resp }

/-- A call of `KafkaDirectProducer.ProduceSync` with what it meets outside. -/
structure Attempt where
  target : Agent
  version : Int
  topicID : String → Option TopicID
  partitions : List EncodedTopicPartitionRecords
  reply : BrokerReply
  hookErr : Option GoError := none

namespace Attempt

def request (a : Attempt) : Except BuildError (Kmsg.ProduceRequest × ProduceRequestStats) :=
  buildMultiTopicProduceRequestFromEncoded a.version a.topicID a.partitions

/-- `KafkaDirectProducer.ProduceSync`. -/
def result (a : Attempt) : ProduceResult :=
  match a.request with
  | .error e => { err := some e.err }
  | .ok _ => a.reply.result a.hookErr

/-- The request was sent, and has the bytes for the partition. -/
def Sends (a : Attempt) (tp : TopicPartition) (bytes : Bytes) : Prop :=
  ∃ req stats, a.request = .ok (req, stats) ∧
    ∃ t ∈ req.topics, t.topic = tp.topic ∧ ⟨tp.partition, bytes⟩ ∈ t.partitions

/-- The agent acknowledged the partition. -/
def Acknowledges (a : Attempt) (tp : TopicPartition) : Prop :=
  ∃ resp e, a.reply = .response resp ∧ (tp, e) ∈ resp.entries ∧ e.errorCode = 0

/-- A response in the result is that of the agent. -/
theorem of_result_resp {a : Attempt} {resp : Kmsg.ProduceResponse} (got : a.result.resp = some resp) :
    (∃ req stats, a.request = .ok (req, stats)) ∧ a.reply = .response resp := by
  unfold result at got
  cases built : a.request with
  | error e =>
      rw [built] at got
      cases got
  | ok sent =>
      simp only [built, BrokerReply.result] at got
      refine ⟨⟨sent.1, sent.2, rfl⟩, ?_⟩
      split at got
      · cases got
      · cases got
      · cases got
      · rename_i reply _
        rw [reply, Option.some.inj got]

/-- The request has the bytes of every partition that has some. -/
theorem sends_of_mem {a : Attempt} {p : EncodedTopicPartitionRecords} (mem : p ∈ a.partitions)
    (filled : p.encoded ≠ []) (built : ∃ req stats, a.request = .ok (req, stats)) :
    a.Sends p.topicPartition p.encoded := by
  obtain ⟨req, stats, eq⟩ := built
  obtain ⟨-, topics, request, names, entries, -⟩ := of_foldlM_buildTopic eq
  have groups := FirstSeen.groups_groupBy EncodedTopicPartitionRecords.topic a.partitions
  have named : p.topic ∈ topics.map (·.topic) := by
    rw [names]
    exact groups.covers p mem
  obtain ⟨t, inside, topic⟩ := List.mem_map.mp named
  obtain ⟨-, g, group, key, own⟩ := entries t inside
  refine ⟨req, stats, eq, t, ?_, topic, ?_⟩
  · rw [show req = _ from request]
    exact inside
  · rw [own]
    refine List.mem_map.mpr ⟨p, List.mem_filter.mpr ⟨?_, decide_eq_true filled⟩, rfl⟩
    rw [groups.members g.1 g.2 group, List.mem_filter]
    exact ⟨mem, decide_eq_true (topic.symm.trans key.symm)⟩

/-- The request has nothing but the bytes of the partitions. -/
theorem mem_of_sends {a : Attempt} {tp : TopicPartition} {bytes : Bytes} (sends : a.Sends tp bytes) :
    ∃ p ∈ a.partitions, p.topicPartition = tp ∧ p.encoded = bytes := by
  obtain ⟨req, stats, eq, t, inside, topic, entry⟩ := sends
  obtain ⟨-, topics, request, -, entries, -⟩ := of_foldlM_buildTopic eq
  have listed : t ∈ topics := by
    rw [show req = _ from request] at inside
    exact inside
  obtain ⟨-, g, group, key, own⟩ := entries t listed
  rw [own] at entry
  obtain ⟨p, member, same⟩ := List.mem_map.mp entry
  have members := (FirstSeen.groups_groupBy EncodedTopicPartitionRecords.topic
    a.partitions).members g.1 g.2 group
  rw [nonEmpty, List.mem_filter, members, List.mem_filter] at member
  obtain ⟨partition, encoded⟩ := Kmsg.ProduceRequestTopicPartition.mk.inj same
  refine ⟨p, member.1.1, ?_, encoded⟩
  rw [EncodedTopicPartitionRecords.topicPartition, of_decide_eq_true member.1.2, key, topic, partition]

end Attempt

end Warpstream
