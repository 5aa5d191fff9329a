import RfTrans.Lib.Framing
import RfTrans.Runtime.RemoteMsg
import RfTrans.Service.ServiceRuntime

/-!
# What the receivers make of the frames

The receive thread of the message runtime reads four frames at a time from the SUB socket;
that of the service runtime seven from the replier and six from the requester, both ROUTER
sockets that put the identity of the sender first.  None of them looks at where a message
ends.

## Main definitions

* `receiveMessage`, `receiveRequest`, `receiveResponse` — the records, from the frames.
* `messageReceiver`, `serviceReceiver` — the two threads.
* `receivers_aligned_iff`
-/

namespace RfTrans

open Framing

/-- `receiveMessage`: a record once there are four frames. -/
def receiveMessage : List Str → Option RemoteMsg
  | [topic, sender, data, msgType] => some (.ofFrames topic sender data msgType)
  | _ => none

/-- `receiveRequest` -/
def receiveRequest : List Str → Option RemoteRequest
  | [replyRoutingId, topic, nodeUuid, reqUuid, reqData, reqType, repType] =>
    some ⟨replyRoutingId, topic, nodeUuid, reqUuid, reqData, reqType, repType⟩
  | _ => none

/-- `receiveResponse`; the first frame is ignored. -/
def receiveResponse : List Str → Option RemoteResponse
  | [_, topic, nodeUuid, reqUuid, repData, resultStr] =>
    some ⟨topic, nodeUuid, reqUuid, repData, resultStr⟩
  | _ => none

theorem receiveMessage_isSome (l : List Str) : (receiveMessage l).isSome ↔ l.length = 4 := by
  unfold receiveMessage
  split
  case h_1 => simp
  case h_2 hne =>
    refine iff_of_false (by simp) fun hlen => ?_
    match l, hlen with
    | [a, b, c, d], _ => exact hne a b c d rfl

theorem receiveRequest_isSome (l : List Str) : (receiveRequest l).isSome ↔ l.length = 7 := by
  unfold receiveRequest
  split
  case h_1 => simp
  case h_2 hne =>
    refine iff_of_false (by simp) fun hlen => ?_
    match l, hlen with
    | [a, b, c, d, e, f, g], _ => exact hne a b c d e f g rfl

theorem receiveResponse_isSome (l : List Str) : (receiveResponse l).isSome ↔ l.length = 6 := by
  unfold receiveResponse
  split
  case h_1 => simp
  case h_2 hne =>
    refine iff_of_false (by simp) fun hlen => ?_
    match l, hlen with
    | [a, b, c, d, e, f], _ => exact hne a b c d e f rfl

/-- `receiveLoop` of the message runtime, with the bounded queue of `receiveMessage`. -/
def messageReceiver : Framing.Receiver Unit Str RemoteMsg where
  sockets := [()]
  nodup := List.nodup_singleton ()
  mem_sockets := fun _ => List.mem_singleton.mpr rfl
  count := fun _ => 4
  count_pos := fun _ => by decide
  build := fun _ => receiveMessage
  build_isSome := fun _ => receiveMessage_isSome
  limit := fun _ => some kMsgQueueLimit
  limit_pos := fun _ => by decide

/-- The sockets of the service runtime. -/
inductive RouterSocket
  | replier
  | requester
  deriving DecidableEq

/-- `receiveLoop` of the service runtime. -/
def serviceReceiver : Framing.Receiver RouterSocket Str (RemoteRequest ⊕ RemoteResponse) where
  sockets := [.replier, .requester]
  nodup := by decide
  mem_sockets := fun i => by cases i <;> decide
  count
    | .replier => 7
    | .requester => 6
  count_pos := fun i => by cases i <;> decide
  build
    | .replier => fun l => (receiveRequest l).map .inl
    | .requester => fun l => (receiveResponse l).map .inr
  build_isSome := by
    intro i l
    cases i with
    | replier => exact (Option.isSome_map ..).symm ▸ receiveRequest_isSome l
    | requester => exact (Option.isSome_map ..).symm ▸ receiveResponse_isSome l
  limit := fun _ => none
  limit_pos := fun _ => by decide

/-- What arrives at the ROUTER sockets. -/
def routers (requests responses : List (Message Str)) : RouterSocket → List (Message Str)
  | .replier => requests
  | .requester => responses

/-- The frames of a request arrive behind the identity of the sender, and make the request. -/
theorem receiveRequest_frames (m : RequestFrames) (sender : Str) :
    receiveRequest [sender, m.topic, m.nodeUuid, m.reqUuid, m.reqData, m.reqType, m.repType] =
      some (m.receiveRequest sender) := rfl

theorem receiveResponse_frames (m : ResponseFrames) (sender : Str) :
    receiveResponse [sender, m.topic, m.nodeUuid, m.reqUuid, m.repData, m.resultStr] =
      some m.receiveResponse := rfl

/-- From its first message with another number of frames on, the stream has less than one
message in all. -/
def ShortTail (n : ℕ) (ms : List (Message Str)) : Prop :=
  ((tail n ms).flatMap Message.frames).length < n

instance (n : ℕ) (ms : List (Message Str)) : Decidable (ShortTail n ms) :=
  inferInstanceAs (Decidable (_ < _))

/-- **The receivers stay aligned with the messages** if and only if every stream is well
framed up to a short tail, and a tail on one of the ROUTER sockets, in which the thread
then waits, comes with no message for the other. -/
theorem receivers_aligned_iff (messages requests responses : List (Message Str)) :
    (messageReceiver.StaysAligned (fun _ => messages) ∧
      serviceReceiver.StaysAligned (routers requests responses)) ↔
    ShortTail 4 messages ∧ (ShortTail 7 requests ∧ ShortTail 6 responses) ∧
      (tail 7 requests ≠ [] → ∀ m ∈ responses, m.frames.length ≠ 6) ∧
      (tail 6 responses ≠ [] → ∀ m ∈ requests, m.frames.length ≠ 7) := by
  rw [Framing.Receiver.staysAligned_iff, Framing.Receiver.staysAligned_iff]
  constructor
  · rintro ⟨hmessages, hservice⟩
    exact ⟨hmessages.short (), ⟨hservice.short .replier, hservice.short .requester⟩,
      fun htail => hservice.alone .replier htail .requester nofun,
      fun htail => hservice.alone .requester htail .replier nofun⟩
  · rintro ⟨hmessages, ⟨hrequests, hresponses⟩, hreplier, hrequester⟩
    refine ⟨⟨fun _ => hmessages, fun i _ j hj => absurd rfl hj⟩,
      ⟨fun i => ?_, fun i htail j hj => ?_⟩⟩
    · cases i with
      | replier => exact hrequests
      | requester => exact hresponses
    · cases i with
      | replier =>
          cases j with
          | replier => exact absurd rfl hj
          | requester => exact hreplier htail
      | requester =>
          cases j with
          | replier => exact hrequester htail
          | requester => exact absurd rfl hj

/-- A message of one frame, and a well framed one after it. -/
def afterFragment : List (Message Str) :=
  [(str "t", []), (str "t", [str "tcp://b", [8, 1], str "A"])]

/-- The four frames read first are those of both messages but the last. -/
theorem afterFragment_misaligned :
    ¬ ∀ messages requests responses : List (Message Str),
      messageReceiver.StaysAligned (fun _ => messages) ∧
        serviceReceiver.StaysAligned (routers requests responses) := by
  intro h
  have haligned := (h afterFragment [] []).1
  rw [Framing.Receiver.staysAligned_iff] at haligned
  have hshort : ShortTail 4 afterFragment := haligned.short ()
  revert hshort
  decide

end RfTrans
