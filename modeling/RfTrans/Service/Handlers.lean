import RfTrans.Basic

/-!
# Service handlers

The objects that carry a service call: `RepHandler` holds the callback of a
responder, `ReqHandler` the request of a caller and what is known of its reply.
The protobuf library is a parameter, `ProtoTypes`: the generated classes with their
names, their default values and their serialization.

## Main definitions

* `ProtoTypes`, `LawfulProto` — message classes, and that parsing undoes serializing.
* `RepHandler.runLocalCallback`, `RepHandler.runCallback`
* `ReqHandler`, `ReqState`, `ReqHandler.notifyResult`
-/

namespace RfTrans

/-- The message classes that `protoc` generates: `T` are their descriptors. -/
class ProtoTypes (T : Type) where
  decEq : DecidableEq T
  Content : T → Type
  /-- `descriptor()->full_name()` -/
  fullName : T → Str
  /-- `std::make_shared<M>()` -/
  fresh : (t : T) → Content t
  /-- `SerializeToString` -/
  serialize : (t : T) → Content t → Option Str
  /-- `ParseFromString`: what the object holds afterwards, and the result. -/
  parse : (t : T) → Str → Content t × Bool

instance (T : Type) [ProtoTypes T] : DecidableEq T := ProtoTypes.decEq

open ProtoTypes

/-- Serialization succeeds, and parsing gives the message back. -/
class LawfulProto (T : Type) [ProtoTypes T] : Prop where
  parse_serialize : ∀ (t : T) (m : Content t), ∃ b, serialize t m = some b ∧ parse t b = (m, true)

/-- `ProtoMsg`, an object of any of the classes. -/
structure ProtoMsg (T : Type) [ProtoTypes T] where
  type : T
  content : Content type

variable {T : Type} [ProtoTypes T]

/-- `std::dynamic_pointer_cast`: null when the object is of another class. -/
def ProtoMsg.cast (t : T) (m : ProtoMsg T) : Option (Content t) :=
  if h : m.type = t then some (h ▸ m.content) else none

@[simp] theorem ProtoMsg.cast_mk (t : T) (m : Content t) : ProtoMsg.cast t ⟨t, m⟩ = some m := by
  simp [ProtoMsg.cast]

/-- `RepHandler<Req, Rep>`. The callback fills in the reply object it is given. -/
structure RepHandler (T : Type) [ProtoTypes T] where
  req : T
  rep : T
  handlerUuid : Str
  cb : Option (Content req → Content rep → Content rep × Bool)

namespace RepHandler

/-- `getReqTypeName` -/
def getReqTypeName (h : RepHandler T) : Str := fullName h.req

/-- `getRepTypeName` -/
def getRepTypeName (h : RepHandler T) : Str := fullName h.rep

/-- The type test of `getFirstHandler`. -/
def handles (reqType repType : Str) (h : RepHandler T) : Bool :=
  reqType = h.getReqTypeName ∧ repType = h.getRepTypeName

/-- `runLocalCallback`: the reply object and the result; `none` when the callback is
handed a null pointer. -/
def runLocalCallback (h : RepHandler T) (msgReq msgRep : ProtoMsg T) : Option (ProtoMsg T × Bool) :=
  match h.cb with
  | none => some (msgRep, false)
  | some cb =>
    match msgReq.cast h.req, msgRep.cast h.rep with
    | some req, some rep =>
      let (rep, ok) := cb req rep
      some (⟨h.rep, rep⟩, ok)
    | _, _ => none

/-- `createMsg`: a parse error is logged and the object is used all the same. -/
def createMsg (h : RepHandler T) (data : Str) : Content h.req := (parse h.req data).1

/-- `runCallback`: the serialized reply, which stays empty on failure, and the result. -/
def runCallback (h : RepHandler T) (req : Str) : Str × Bool :=
  match h.cb with
  | none => ([], false)
  | some cb =>
    let (rep, ok) := cb (h.createMsg req) (fresh h.rep)
    if ok then
      match serialize h.rep rep with
      | none => ([], false)
      | some data => (data, true)
    else ([], false)

end RepHandler

/-- `ReqHandler<Req, Rep>`: what is fixed when the request is made. -/
structure ReqHandler (T : Type) [ProtoTypes T] where
  req : T
  rep : T
  nodeUuid : Str
  handlerUuid : Str
  reqMsg : Content req
  /-- Whether a callback is set. -/
  cb : Bool

/-- What changes in a `ReqHandler`, with the calls of its callback. -/
structure ReqState (T : Type) [ProtoTypes T] where
  rep : Str := []
  result : Bool := false
  requested : Bool := false
  repAvailable : Bool := false
  calls : List (ProtoMsg T × Bool) := []

namespace ReqHandler

/-- `getReqTypeName` -/
def getReqTypeName (h : ReqHandler T) : Str := fullName h.req

/-- `getRepTypeName` -/
def getRepTypeName (h : ReqHandler T) : Str := fullName h.rep

/-- `serialize` -/
def serialize (h : ReqHandler T) : Option Str := ProtoTypes.serialize h.req h.reqMsg

/-- `createMsg`: a parse error is logged and the object is used all the same. -/
def createMsg (h : ReqHandler T) (data : Str) : Content h.rep := (parse h.rep data).1

/-- `notifyResult` -/
def notifyResult (h : ReqHandler T) (st : ReqState T) (rep : Str) (result : Bool) : ReqState T :=
  let st := if h.cb then { st with calls := st.calls ++ [(⟨h.rep, h.createMsg rep⟩, result)] }
    else { st with rep := rep, result := result }
  { st with repAvailable := true }

end ReqHandler

/-! ## A message class -/

/-- The message class `rf.msgs.Empty` alone, with its one field `unused`. -/
inductive EmptyOnly
  | empty
  deriving DecidableEq

/-- Field 1 as a varint; a false field is not on the wire. Other bytes are refused. -/
instance : ProtoTypes EmptyOnly where
  decEq := inferInstance
  Content _ := Bool
  fullName _ := str "rf.msgs.Empty"
  fresh _ := false
  serialize _ unused := some (if unused then [8, 1] else [])
  parse _ data := if data = [] then (false, true) else if data = [8, 1] then (true, true)
    else (false, false)

instance : LawfulProto EmptyOnly where
  parse_serialize _ m := by
    cases m with
    | true => exact ⟨[8, 1], rfl, rfl⟩
    | false => exact ⟨[], rfl, rfl⟩

end RfTrans
