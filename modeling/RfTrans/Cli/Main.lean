import RfTrans.Cli.Observer
import RfTrans.Cli.Options
import RfTrans.Cli.Sniffing
import RfTrans.Cli.Watch

/-!
# The tool

`main` reads the command line, opens an observer, waits, and runs one command.  The exit
status tells a command line that makes no sense, a topic that is not there and a failure of
the system apart.

## Main definitions

* `Environment` — what a run of the tool meets with.
* `run`, `main`
* `Query` — the commands that ask for endpoints.
* `query_answered` — they show what is known.
* `exit_status` — the statuses and when the tool complains.
-/

namespace RfTrans

open TopicStorage

namespace Tool

/-- What is thrown: an `std::invalid_argument`, or another `std::exception`. -/
inductive Thrown
  | invalidArgument (what : Str)
  | other (what : Str)

/-- What a run of the tool meets with. -/
structure Environment where
  /-- `inet_pton` reads an address, and it is one for multicasts. -/
  isMulticast : Str → Bool
  /-- What the observer's instances know after the wait, or why they cannot be opened. -/
  openMessages : DiscoveryObserverOptions → Except Str (Discovery MessagePublisherInfo)
  openServices : DiscoveryObserverOptions → Except Str (Discovery ServicePublisherInfo)
  /-- What the observer knows at the later snapshots, up to a signal. -/
  later : List DiscoveryObserver
  /-- What a sniffer receives up to a signal, or why it cannot be opened. -/
  openSniffer : DiscoveryObserverOptions → Except Str (List SniffedMessage)
  /-- `UnknownFieldSet::ParseFromArray` -/
  parseFromArray : Str → ℤ → Option (List UnknownField)

/-- What the tool leaves behind. -/
structure Exit where
  status : ℕ
  out : Str := []
  err : Str := []

/-- `kExitUsage` -/
def kExitUsage : ℕ := 2

/-- `kExitNotFound` -/
def kExitNotFound : ℕ := 3

/-- `kExitRuntime` -/
def kExitRuntime : ℕ := 4

/-- `printUsage` -/
def usage : Str :=
  str "Usage: rf-trans [options] <command>\n\n" ++
  str "Commands:\n" ++
  str "  topic list                 List discovered message endpoints\n" ++
  str "  topic info <topic>         Show endpoints for one message topic\n" ++
  str "  topic sniff <topic>        Monitor a topic's live rate and raw content\n" ++
  str "  service list               List discovered service endpoints\n" ++
  str "  service info <topic>       Show endpoints for one service topic\n" ++
  str "  watch topics|services      Stream endpoint add/remove events\n" ++
  str "  doctor                     Report discovery configuration and endpoint counts\n\n" ++
  str "Options:\n" ++
  str "  --output table|json|jsonl  Output format (default: table)\n" ++
  str "  --wait-ms <ms>             Initial discovery window (default: 1200)\n" ++
  str "  --prefix <prefix>          Filter list/watch topics by prefix\n" ++
  str "  --host-ip <IPv4>           Select the local multicast interface\n" ++
  str "  --discovery-group <IPv4>   Discovery multicast group\n" ++
  str "  --message-port <port>      Message discovery port\n" ++
  str "  --service-port <port>      Service discovery port\n" ++
  str "  --watch-interval-ms <ms>   Snapshot interval for watch (default: 500)\n"

/-! ## Opening an observer -/

/-- The tests at the head of the constructor of `Discovery`. -/
def checkDiscovery (env : Environment) (port : UInt16) (multicastGroup : Str) :
    Except Thrown Unit :=
  if port = 0 then
    .error (.invalidArgument (str "Discovery initialization failed: port must be in [1, 65535]."))
  else if env.isMulticast multicastGroup then .ok ()
  else
    .error (.invalidArgument
      (str "Discovery initialization failed: multicast group must be an IPv4 multicast address."))

/-- The constructor of `DiscoveryObserver`, and the wait. -/
def observe (env : Environment) (options : DiscoveryObserverOptions) :
    Except Thrown DiscoveryObserver := do
  checkDiscovery env options.messagePort options.multicastGroup
  let messageDiscovery ← (env.openMessages options).mapError .other
  checkDiscovery env options.servicePort options.multicastGroup
  let serviceDiscovery ← (env.openServices options).mapError .other
  return { messageDiscovery, serviceDiscovery }

/-! ## The commands -/

section Commands

variable {E : Type} [EndpointInfo E]

/-- `filterByTopic` -/
def filterByTopic (endpoints : List E) (topic : Str) : List E :=
  endpoints.filter fun e => EndpointInfo.topic e = topic

/-- A line of the details. -/
def detail (name : String) (value : Str) : Str := str name ++ str ": " ++ value ++ str "\n"

/-- `printMessageDetails` -/
def printMessageDetails (endpoints : List MessageEndpointInfo) : Str :=
  endpoints.flatMap fun e =>
    detail "TOPIC" e.topic ++ detail "MESSAGE_TYPE" e.messageType ++ detail "ADDRESS" e.address ++
    detail "CONTROL_ID" e.controlId ++ detail "PROCESS_NAME" e.processName ++
    detail "NODE_UUID" e.nodeUuid ++ detail "SCOPE" (scopeName e.scope) ++
    str "MESSAGES_PER_SECOND: " ++
    (if e.throttled then Decimal.text e.messagesPerSecond.toNat else str "unlimited") ++
    str "\n\n"

/-- `printServiceDetails` -/
def printServiceDetails (endpoints : List ServiceEndpointInfo) : Str :=
  endpoints.flatMap fun e =>
    detail "TOPIC" e.topic ++ detail "REQUEST_TYPE" e.requestType ++
    detail "RESPONSE_TYPE" e.responseType ++ detail "ADDRESS" e.address ++
    detail "SOCKET_ID" e.socketId ++ detail "PROCESS_NAME" e.processName ++
    detail "NODE_UUID" e.nodeUuid ++ str "SCOPE: " ++ scopeName e.scope ++ str "\n\n"

/-- `doctor` -/
def doctor (options : Options) (observer : DiscoveryObserver) : Exit :=
  let messages := filterByPrefix observer.messageEndpoints options.namePrefix
  let services := filterByPrefix observer.serviceEndpoints options.namePrefix
  let discovery := options.discovery
  { status := 0
    out :=
      if options.output = .table then
        detail "HOST_ADDRESS" observer.hostAddress ++
        detail "MULTICAST_GROUP" discovery.multicastGroup ++
        detail "MESSAGE_PORT" (Decimal.text discovery.messagePort.toNat) ++
        detail "SERVICE_PORT" (Decimal.text discovery.servicePort.toNat) ++
        detail "DISCOVERY_WINDOW_MS" (Decimal.text options.waitMs.toNat) ++
        detail "MESSAGE_ENDPOINTS" (Decimal.text messages.length) ++
        detail "SERVICE_ENDPOINTS" (Decimal.text services.length)
      else
        str "\x7b\"host_address\":" ++ quoteJson observer.hostAddress ++
        jsonMember "multicast_group" (quoteJson discovery.multicastGroup) ++
        jsonMember "message_port" (Decimal.text discovery.messagePort.toNat) ++
        jsonMember "service_port" (Decimal.text discovery.servicePort.toNat) ++
        jsonMember "discovery_window_ms" (Decimal.text options.waitMs.toNat) ++
        jsonMember "message_endpoints" (Decimal.text messages.length) ++
        jsonMember "service_endpoints" (Decimal.text services.length) ++ str "\x7d\n" }

/-- `topic sniff`; calls are nested no deeper than the messages are long. -/
def topicSniff (env : Environment) (options : Options) : Except Thrown Exit := do
  checkDiscovery env options.discovery.messagePort options.discovery.multicastGroup
  let messages ← (env.openSniffer options.discovery).mapError .other
  let depth := messages.foldl (fun n m => max n m.rawData.length) 0
  let printed := sniff env.parseFromArray depth options.output messages
  return { status := 0, out := (printed.map fun s => s.2.out).getD [] }

/-- `list` without a topic and `info` with one. -/
def listOrInfo (options : Options) (topic : Option Str) (endpoints : List E)
    (details : List E → Str) (print : List E → OutputFormat → Str → OStream → OStream) : Exit :=
  let endpoints := filterByPrefix endpoints options.namePrefix
  match topic with
  | none => { status := 0, out := (print endpoints options.output [] {}).out }
  | some topic =>
    let endpoints := filterByTopic endpoints topic
    { status := if endpoints.isEmpty then kExitNotFound else 0
      out :=
        if options.output = .table then details endpoints
        else (print endpoints options.output [] {}).out }

/-- What a watch prints. -/
def watch (options : Options) (snapshots : List (List E))
    (print : List E → OutputFormat → Str → OStream → OStream) : Exit :=
  let snapshots := snapshots.map fun snapshot => filterByPrefix snapshot options.namePrefix
  let out := (watchEndpoints snapshots).printed.foldl
    (fun out event => print event.2 options.output event.1 out) {}
  { status := 0, out := out.out }

end Commands

/-- The branch of `run` for `topic` and `service`: the topic of `info`. -/
def parseAction (command : Str) (arguments : List Str) : Except Thrown (Option Str) :=
  let invalid (text : String) : Except Thrown (Option Str) :=
    .error (.invalidArgument (command ++ str text))
  match arguments with
  | [] => invalid " requires list or info <topic>"
  | action :: rest =>
    if 1 < rest.length then invalid " requires list or info <topic>"
    else if action ≠ str "list" ∧ action ≠ str "info" then invalid " action must be list or info"
    else if action = str "list" ∧ rest ≠ [] then invalid " list does not accept a topic"
    else if action = str "info" ∧ rest = [] then invalid " info requires a topic"
    else .ok rest.head?

/-- `run` -/
def run (env : Environment) (options : Options) : Except Thrown Exit :=
  match options.positional with
  | [] => .ok { status := kExitUsage, err := usage }
  | command :: arguments => do
    let observer ← observe env options.discovery
    if command = str "doctor" then
      if arguments ≠ [] then
        .error (.invalidArgument (str "doctor does not accept positional arguments"))
      else return doctor options observer
    else if command = str "topic" ∧ arguments.length = 2 ∧
        arguments.head? = some (str "sniff") then
      topicSniff env options
    else if command = str "topic" then
      let topic ← parseAction command arguments
      return listOrInfo options topic observer.messageEndpoints printMessageDetails printMessages
    else if command = str "service" then
      let topic ← parseAction command arguments
      return listOrInfo options topic observer.serviceEndpoints printServiceDetails printServices
    else if command = str "watch" then
      if arguments = [str "topics"] then
        return watch options ((observer :: env.later).map (·.messageEndpoints)) printMessages
      else if arguments = [str "services"] then
        return watch options ((observer :: env.later).map (·.serviceEndpoints)) printServices
      else .error (.invalidArgument (str "watch requires topics or services"))
    else .error (.invalidArgument (str "unknown command: " ++ command))

/-- What `main` catches. -/
def report : Except Thrown Exit → Exit
  | .ok exit => exit
  | .error (.invalidArgument what) =>
    { status := kExitUsage, err := str "rf-trans: " ++ what ++ str "\n" }
  | .error (.other what) =>
    { status := kExitRuntime, err := str "rf-trans: " ++ what ++ str "\n" }

/-- `main`, without the name of the program. -/
def main (env : Environment) (arguments : List Str) : Exit :=
  if arguments.any fun a => a = str "--help" ∨ a = str "-h" then { status := 0, out := usage }
  else report ((parseOptions arguments).mapError .invalidArgument >>= run env)

/-! ## Queries -/

/-- `topic list`, `topic info`, `service list` and `service info`. -/
structure Query where
  service : Bool
  topic : Option Str

namespace Query

/-- The words of a query. -/
def words (query : Query) : List Str :=
  (if query.service then str "service" else str "topic") ::
    ((query.topic.map fun topic => [str "info", topic]).getD [str "list"])

/-- The topics that are asked for. -/
def Wants (query : Query) (start topic : Str) : Prop :=
  startsWith topic start = true ∧ ∀ t, query.topic = some t → topic = t

instance (query : Query) (start topic : Str) : Decidable (query.Wants start topic) :=
  match h : query.topic with
  | none => decidable_of_iff (startsWith topic start = true) (by simp [Wants, h])
  | some t => decidable_of_iff (startsWith topic start = true ∧ topic = t) (by simp [Wants, h])

end Query

/-- The output shows values, as an array or one a line. -/
def Shows (output : OutputFormat) (values : List Json) (out : Str) : Prop :=
  match output with
  | .table => False
  | .json => Json.decode out = some (.array values)
  | .jsonLines => ∃ lines : List Str, out = lines.flatMap (· ++ [0x0A]) ∧
      List.Forall₂ (fun line value => 0x0A ∉ line ∧ Json.decode line = some value) lines values

/-- A query is answered from a table: what is shown are the publishers of the topics that are
asked for, each as often as it is filed, and nothing else; a topic of `info` that nobody
publishes makes for a status of its own. -/
structure Answered {π E : Type} [PubLike π] [EndpointInfo E] (known : TopicStorage π)
    (ofPublisher : π → E) (processOf : E → Str) (value : E → Json) (query : Query)
    (options : Options) (exit : Exit) : Prop where
  shown : ∃ endpoints : List E, Shows options.output (endpoints.map value) exit.out ∧
    ∀ t q, (endpoints.filter fun e => EndpointInfo.topic e = t ∧ processOf e = q) =
      if query.Wants options.namePrefix t then (known.pubsOf t q).map ofPublisher else []
  err : exit.err = []
  status : exit.status = 0 ∨ exit.status = kExitNotFound
  notFound : exit.status = kExitNotFound ↔ query.topic ≠ none ∧
    ∀ t q, query.Wants options.namePrefix t → known.pubsOf t q = []

section Answer

variable {π E : Type} [PubLike π] [EndpointInfo E] {ofPublisher : π → E} {processOf : E → Str}
  {value : E → Json} {query : Query} {options : Options} {d : Discovery π}
  {details : List E → Str} {print : List E → OutputFormat → Str → OStream → OStream}

/-- The endpoints that a query leaves. -/
def Query.select (query : Query) (start : Str) (endpoints : List E) : List E :=
  endpoints.filter fun e => query.Wants start (EndpointInfo.topic e)

theorem Query.select_of_topic {start : Str} {endpoints : List E} {topic : Str}
    (h : query.topic = some topic) :
    filterByTopic (filterByPrefix endpoints start) topic = query.select start endpoints := by
  rw [filterByTopic, filterByPrefix, List.filter_filter, Query.select]
  refine List.filter_congr fun e _ => ?_
  simp [Query.Wants, h, Bool.and_comm]

theorem Query.select_of_none {start : Str} {endpoints : List E} (h : query.topic = none) :
    filterByPrefix endpoints start = query.select start endpoints := by
  rw [filterByPrefix, Query.select]
  refine List.filter_congr fun e _ => ?_
  simp [Query.Wants, h]

/-- The endpoints that are left, for one topic and one process. -/
theorem filter_select (query : Query) (hw : d.knownPublishers.WellFormed)
    (htopic : ∀ p, EndpointInfo.topic (ofPublisher p) = PubLike.topic p)
    (hprocess : ∀ p, processOf (ofPublisher p) = PubLike.processUuid p) (start t q : Str) :
    ((query.select start (snapshotEndpoints ofPublisher d)).filter fun e =>
        EndpointInfo.topic e = t ∧ processOf e = q) =
      if query.Wants start t then (d.knownPublishers.pubsOf t q).map ofPublisher else [] := by
  have hsnapshot := filter_snapshotEndpoints hw htopic hprocess t q
  rw [Query.select, List.filter_filter]
  split
  case isTrue hwants =>
    rw [← hsnapshot]
    refine List.filter_congr fun e _ => ?_
    by_cases he : EndpointInfo.topic e = t ∧ processOf e = q
    · simp [he, hwants]
    · simp [he]
  case isFalse hwants =>
    refine List.filter_eq_nil_iff.mpr fun e _ => ?_
    rw [Bool.and_eq_true, decide_eq_true_eq, decide_eq_true_eq]
    intro h
    exact hwants (h.1.1 ▸ h.2)

/-- Nothing is left when nothing that is asked for is filed. -/
theorem select_eq_nil_iff (query : Query) (hw : d.knownPublishers.WellFormed)
    (htopic : ∀ p, EndpointInfo.topic (ofPublisher p) = PubLike.topic p)
    (hprocess : ∀ p, processOf (ofPublisher p) = PubLike.processUuid p) (start : Str) :
    query.select start (snapshotEndpoints ofPublisher d) = [] ↔
      ∀ t q, query.Wants start t → d.knownPublishers.pubsOf t q = [] := by
  have hfilter := filter_select query hw htopic hprocess start
  constructor
  · intro hnil t q hwants
    have h := hfilter t q
    rw [hnil, if_pos hwants] at h
    exact List.map_eq_nil_iff.mp h.symm
  · intro hnone
    refine List.eq_nil_iff_forall_not_mem.mpr fun e he => ?_
    have hmem : e ∈ (query.select start (snapshotEndpoints ofPublisher d)).filter fun e' =>
        EndpointInfo.topic e' = EndpointInfo.topic e ∧ processOf e' = processOf e := by
      simpa using he
    rw [hfilter] at hmem
    split at hmem
    case isTrue hwants =>
      rw [hnone _ _ hwants] at hmem
      cases hmem
    case isFalse => cases hmem

/-- **The branch of a query answers it.** -/
theorem answered_listOrInfo (hw : d.knownPublishers.WellFormed)
    (htopic : ∀ p, EndpointInfo.topic (ofPublisher p) = PubLike.topic p)
    (hprocess : ∀ p, processOf (ofPublisher p) = PubLike.processUuid p)
    (houtput : options.output ≠ .table)
    (hprint : Shows options.output
      ((query.select options.namePrefix (snapshotEndpoints ofPublisher d)).map value)
      (print (query.select options.namePrefix (snapshotEndpoints ofPublisher d)) options.output []
        {}).out) :
    Answered d.knownPublishers ofPublisher processOf value query options
      (listOrInfo options query.topic (snapshotEndpoints ofPublisher d) details print) := by
  have hshown := filter_select query hw htopic hprocess options.namePrefix
  cases hquery : query.topic with
  | none =>
      rw [listOrInfo, Query.select_of_none hquery]
      exact ⟨⟨_, hprint, hshown⟩, rfl, .inl rfl, by simp [kExitNotFound, hquery]⟩
  | some topic =>
      have hnil := select_eq_nil_iff query hw htopic hprocess options.namePrefix
      simp only [listOrInfo, Query.select_of_topic hquery, if_neg houtput]
      refine ⟨⟨_, hprint, hshown⟩, rfl, ?_, ?_⟩
      · split
        · exact .inr rfl
        · exact .inl rfl
      · rw [← hnil, hquery, ← List.isEmpty_iff]
        split
        case isTrue h => simp [h]
        case isFalse h => simp [h, kExitNotFound]

omit [EndpointInfo E] in
/-- What is written is shown. -/
theorem shows_printEndpoints {table : List E → Str → OStream → OStream} {json : E → Str → Str}
    {output : OutputFormat} {event : Str} {endpoints : List E} (houtput : output ≠ .table)
    (h : ∀ e ∈ endpoints, Writes (json e event) (value e)) :
    Shows output (endpoints.map value)
      (printEndpoints table json endpoints output event {}).out := by
  cases output with
  | table => exact absurd rfl houtput
  | json => exact decode_json h
  | jsonLines =>
      obtain ⟨lines, hout, hlines⟩ := @decode_jsonLines E table json value event endpoints h
      exact ⟨lines, hout, List.forall₂_map_right_iff.mpr hlines⟩

end Answer

/-! ## The whole tool -/

/-- The words of a query are taken for it. -/
theorem parseAction_words (query : Query) (command : Str) :
    parseAction command query.words.tail = .ok query.topic := by
  have hne : str "info" ≠ str "list" := by decide
  rw [Query.words, List.tail_cons]
  cases query.topic with
  | none => simp [parseAction, hne.symm]
  | some topic => simp [parseAction, hne]

theorem run_query {env : Environment} {options : Options} {query : Query}
    {observer : DiscoveryObserver} (hquery : options.positional = query.words)
    (hobserve : observe env options.discovery = .ok observer) :
    run env options = .ok (if query.service then
      listOrInfo options query.topic observer.serviceEndpoints printServiceDetails printServices
    else
      listOrInfo options query.topic observer.messageEndpoints printMessageDetails
        printMessages) := by
  have haction := parseAction_words query
  have hsniff : query.words.tail.head? ≠ some (str "sniff") := by
    have hinfo : str "info" ≠ str "sniff" := by decide
    have hlist : str "list" ≠ str "sniff" := by decide
    rw [Query.words, List.tail_cons]
    cases query.topic with
    | none => simpa using hlist
    | some topic => simpa using hinfo
  have hdoctor : str "topic" ≠ str "doctor" ∧ str "service" ≠ str "doctor" := by decide
  have hservice : str "service" ≠ str "topic" := by decide
  obtain ⟨service, topic⟩ := query
  rw [Query.words] at hquery haction hsniff
  rw [List.tail_cons] at haction hsniff
  rw [run, hquery]
  cases service with
  | false => simp [hobserve, haction, hsniff, hdoctor.1, bind, Except.bind, pure, Except.pure]
  | true => simp [hobserve, haction, hdoctor.2, hservice, bind, Except.bind, pure, Except.pure]

theorem not_any_help {arguments : List Str}
    (hhelp : ∀ a ∈ arguments, a ≠ str "--help" ∧ a ≠ str "-h") :
    ¬ (arguments.any fun a => a = str "--help" ∨ a = str "-h") = true := by
  rw [List.any_eq_true]
  rintro ⟨a, ha, heq⟩
  have hne := hhelp a ha
  simp [hne.1, hne.2] at heq

theorem main_of_parse {env : Environment} {arguments : List Str} {options : Options}
    (hhelp : ∀ a ∈ arguments, a ≠ str "--help" ∧ a ≠ str "-h")
    (hparse : parseOptions arguments = .ok options) :
    main env arguments = report (run env options) := by
  rw [main, if_neg (not_any_help hhelp), hparse]
  rfl

theorem main_of_run {env : Environment} {arguments : List Str} {options : Options} {exit : Exit}
    (hhelp : ∀ a ∈ arguments, a ≠ str "--help" ∧ a ≠ str "-h")
    (hparse : parseOptions arguments = .ok options) (hrun : run env options = .ok exit) :
    main env arguments = exit := by
  rw [main_of_parse hhelp hparse, hrun, report]

/-- **The tool answers queries**: whatever its observer has been through, `list` and `info` show
the publishers that it knows of the topics that are asked for, each once and nothing else, and
the exit status tells whether a topic of `info` is there. -/
theorem query_answered (env : Environment) {arguments : List Str} {options : Options}
    {query : Query} {observer : DiscoveryObserver} {uuid uuid' name name' host host' : Str}
    {as : List (Discovery.Action MessagePublisherInfo)}
    {as' : List (Discovery.Action ServicePublisherInfo)}
    (hhelp : ∀ a ∈ arguments, a ≠ str "--help" ∧ a ≠ str "-h")
    (hparse : parseOptions arguments = .ok options)
    (hquery : options.positional = query.words) (houtput : options.output ≠ .table)
    (hobserve : observe env options.discovery = .ok observer)
    (hmessages : observer.messageDiscovery = (Discovery.start uuid name host).run as)
    (hservices : observer.serviceDiscovery = (Discovery.start uuid' name' host').run as')
    (huuid : uuid ≠ []) (huuid' : uuid' ≠ [])
    (htext : ∀ t q, ∀ p ∈ observer.messageDiscovery.knownPublishers.pubsOf t q,
      (MessageEndpointInfo.ofPublisher p).Text)
    (htext' : ∀ t q, ∀ p ∈ observer.serviceDiscovery.knownPublishers.pubsOf t q,
      (ServiceEndpointInfo.ofPublisher p).Text) :
    (query.service = false → Answered observer.messageDiscovery.knownPublishers
      MessageEndpointInfo.ofPublisher (·.processUuid) (messageValue []) query options
      (main env arguments)) ∧
    (query.service = true → Answered observer.serviceDiscovery.knownPublishers
      ServiceEndpointInfo.ofPublisher (·.processUuid) (serviceValue []) query options
      (main env arguments)) := by
  rw [main_of_run hhelp hparse (run_query hquery hobserve)]
  constructor
  · intro hservice
    have hw : observer.messageDiscovery.knownPublishers.WellFormed := by
      rw [hmessages]
      exact Discovery.wellFormed_run name host huuid as
    rw [if_neg (by simp [hservice])]
    refine answered_listOrInfo hw (fun _ => rfl) (fun _ => rfl) houtput ?_
    refine shows_printEndpoints houtput fun e he => ?_
    obtain ⟨t, q, p, hp, rfl⟩ := exists_of_mem_snapshot (List.mem_filter.mp he).1
    exact writes_messageJson (htext t q p hp) Utf8.valid_nil
  · intro hservice
    have hw : observer.serviceDiscovery.knownPublishers.WellFormed := by
      rw [hservices]
      exact Discovery.wellFormed_run name' host' huuid' as'
    rw [if_pos hservice]
    refine answered_listOrInfo hw (fun _ => rfl) (fun _ => rfl) houtput ?_
    refine shows_printEndpoints houtput fun e he => ?_
    obtain ⟨t, q, p, hp, rfl⟩ := exists_of_mem_snapshot (List.mem_filter.mp he).1
    exact writes_serviceJson (htext' t q p hp) Utf8.valid_nil

/-- Process `5b` advertises a topic. -/
def exampleAdvertise : Msgs.Discovery :=
  { processUuid := str "5b", type := .advertise,
    contents := .pub
      { topic := str "t", address := str "tcp://b", nodeUuid := str "n", scope := .all,
        pubType := .msgPub { ctrl := [], msgType := str "A" } } }

/-- An observer that has heard of it. -/
def exampleMessages : Discovery MessagePublisherInfo :=
  (Discovery.start (str "4a") (str "p") (str "h")).run [.recv (str "g") exampleAdvertise 0]

def exampleEnvironment : Environment where
  isMulticast _ := true
  openMessages _ := .ok exampleMessages
  openServices _ := .ok ((Discovery.start (str "4c") (str "p") (str "h")).run [])
  later := []
  openSniffer _ := .ok []
  parseFromArray := sampleParser

/-- `topic info t` shows it. -/
theorem query_answered_info :
    exampleMessages.knownPublishers.pubsOf (str "t") (str "5b") ≠ [] ∧
    Answered exampleMessages.knownPublishers MessageEndpointInfo.ofPublisher (·.processUuid)
      (messageValue []) ⟨false, some (str "t")⟩
      { output := .json, positional := [str "topic", str "info", str "t"] }
      (main exampleEnvironment
        [str "topic", str "info", str "t", str "--output", str "json"]) := by
  have htext : ∀ t q, ∀ p ∈ exampleMessages.knownPublishers.pubsOf t q,
      (MessageEndpointInfo.ofPublisher p).Text := by
    intro t q p hp
    rcases Discovery.mem_pubsOf_dispatch hp with hp | ⟨rfl, -⟩
    · simp [Discovery.start] at hp
    · have hvalid : ∀ s ∈ [str "t", str "tcp://b", str "5b", str "n", str "A", []],
          Utf8.Valid s := by
        simp only [List.forall_mem_cons]
        refine ⟨?_, ?_, ?_, ?_, ?_, ?_, List.forall_mem_nil _⟩ <;>
          exact Utf8.valid_of_forall_lt (by simp [str])
      intro s hs
      exact hvalid s (by revert s; decide)
  refine ⟨by decide, ?_⟩
  exact (@query_answered exampleEnvironment
    [str "topic", str "info", str "t", str "--output", str "json"]
    { output := .json, positional := [str "topic", str "info", str "t"] } ⟨false, some (str "t")⟩
    { messageDiscovery := exampleMessages
      serviceDiscovery := (Discovery.start (str "4c") (str "p") (str "h")).run [] }
    (str "4a") (str "4c") (str "p") (str "p") (str "h") (str "h")
    [.recv (str "g") exampleAdvertise 0] [] (by decide) rfl rfl (by decide) rfl rfl rfl (by decide)
    (by decide) htext (fun t q p hp => by simp [Discovery.start] at hp)).1 rfl

/-! ## The exit status -/

/-- The commands that `printUsage` lists. -/
inductive Command
  | ask (q : Query)
  | sniff (topic : Str)
  | watch (services : Bool)
  | doctor

/-- The words of a command. -/
def Command.words : Command → List Str
  | .ask q => q.words
  | .sniff topic => [str "topic", str "sniff", topic]
  | .watch services => [str "watch", if services then str "services" else str "topics"]
  | .doctor => [str "doctor"]

/-- The arguments are those of a command, with a group that is one for multicasts. -/
def Invokes (env : Environment) (arguments : List Str) (options : Options)
    (command : Command) : Prop :=
  parseOptions arguments = .ok options ∧
    env.isMulticast options.discovery.multicastGroup = true ∧ options.positional = command.words

/-- The instances of an observer can be opened. -/
def Environment.Opens (env : Environment) (options : DiscoveryObserverOptions) : Prop :=
  (∃ d, env.openMessages options = .ok d) ∧ ∃ d, env.openServices options = .ok d

theorem checkDiscovery_of_multicast {env : Environment} {port : UInt16} {group : Str}
    (hport : port ≠ 0) (h : env.isMulticast group = true) :
    checkDiscovery env port group = .ok () := by
  rw [checkDiscovery, if_neg hport, if_pos h]

theorem observe_of_multicast {env : Environment} {options : Options} (hok : options.Ok)
    (hopens : env.Opens options.discovery)
    (h : env.isMulticast options.discovery.multicastGroup = true) :
    ∃ observer, observe env options.discovery = .ok observer := by
  obtain ⟨⟨d, hd⟩, d', hd'⟩ := hopens
  refine ⟨⟨d, d'⟩, ?_⟩
  simp [observe, checkDiscovery_of_multicast hok.messagePort h,
    checkDiscovery_of_multicast hok.servicePort h, hd, hd', Except.mapError, bind, Except.bind,
    pure, Except.pure]

theorem observe_of_not_multicast {env : Environment} {options : Options}
    (h : env.isMulticast options.discovery.multicastGroup ≠ true) :
    ∃ what, observe env options.discovery = .error (.invalidArgument what) := by
  rw [observe, checkDiscovery, if_neg h]
  split
  · exact ⟨_, rfl⟩
  · exact ⟨_, rfl⟩

/-- What follows `topic` or `service` is a query's, or it is rejected. -/
theorem parseAction_cases (command : Str) (arguments : List Str) :
    (∃ query : Query, arguments = query.words.tail) ∨
      ∃ what, parseAction command arguments = .error (.invalidArgument what) := by
  cases arguments with
  | nil => exact .inr ⟨_, rfl⟩
  | cons action rest =>
      by_cases hlength : 1 < rest.length
      · exact .inr ⟨_, by rw [parseAction, if_pos hlength]⟩
      by_cases haction : action ≠ str "list" ∧ action ≠ str "info"
      · exact .inr ⟨_, by rw [parseAction, if_neg hlength, if_pos haction]⟩
      by_cases hlist : action = str "list" ∧ rest ≠ []
      · exact .inr ⟨_, by rw [parseAction, if_neg hlength, if_neg haction, if_pos hlist]⟩
      by_cases hinfo : action = str "info" ∧ rest = []
      · exact .inr ⟨_, by
          rw [parseAction, if_neg hlength, if_neg haction, if_neg hlist, if_pos hinfo]⟩
      left
      cases rest with
      | nil =>
          have heq : action = str "list" := by
            by_contra hne
            exact haction ⟨hne, fun h => hinfo ⟨h, rfl⟩⟩
          exact ⟨⟨false, none⟩, by rw [heq]; rfl⟩
      | cons topic rest =>
          have heq : action = str "info" := by
            by_contra hne
            exact haction ⟨fun h => hlist ⟨h, List.cons_ne_nil _ _⟩, hne⟩
          have hrest : rest = [] := by
            rw [List.length_cons] at hlength
            exact List.length_eq_zero_iff.mp (by omega)
          exact ⟨⟨false, some topic⟩, by rw [heq, hrest]; rfl⟩

/-- The words of a query do not depend on what is asked but for the first one. -/
theorem Query.exists_words {arguments : List Str}
    (h : ∃ query : Query, arguments = query.words.tail) (service : Bool) :
    ∃ query : Query,
      (if service then str "service" else str "topic") :: arguments = query.words := by
  obtain ⟨query, rfl⟩ := h
  exact ⟨⟨service, query.topic⟩, rfl⟩

/-- **What is no command is rejected.** -/
theorem run_rejected {env : Environment} {options : Options} {observer : DiscoveryObserver}
    (hobserve : observe env options.discovery = .ok observer) (hne : options.positional ≠ [])
    (hno : ∀ command : Command, options.positional ≠ command.words) :
    ∃ what, run env options = .error (.invalidArgument what) := by
  rw [run]
  cases hpositional : options.positional with
  | nil => exact absurd hpositional hne
  | cons command arguments =>
      rw [hpositional] at hno
      simp only [hobserve, bind, Except.bind]
      by_cases hdoctor : command = str "doctor"
      · have harguments : arguments ≠ [] := fun h => hno .doctor (by rw [hdoctor, h]; rfl)
        exact ⟨_, by rw [if_pos hdoctor, if_pos harguments]⟩
      by_cases hsniff : command = str "topic" ∧ arguments.length = 2 ∧
          arguments.head? = some (str "sniff")
      · obtain ⟨rfl, hlength, hhead⟩ := hsniff
        obtain ⟨first, topic, rfl⟩ := List.length_eq_two.mp hlength
        obtain rfl := Option.some.inj hhead
        exact absurd rfl (hno (.sniff topic))
      rw [if_neg hdoctor, if_neg hsniff]
      by_cases htopic : command = str "topic"
      · rcases parseAction_cases command arguments with hquery | ⟨what, hwhat⟩
        · obtain ⟨query, heq⟩ := Query.exists_words hquery false
          exact absurd (htopic ▸ heq) (hno (.ask query))
        · exact ⟨what, by simp only [if_pos htopic, hwhat]⟩
      by_cases hservice : command = str "service"
      · rcases parseAction_cases command arguments with hquery | ⟨what, hwhat⟩
        · obtain ⟨query, heq⟩ := Query.exists_words hquery true
          exact absurd (hservice ▸ heq) (hno (.ask query))
        · exact ⟨what, by simp only [if_neg htopic, if_pos hservice, hwhat]⟩
      rw [if_neg htopic, if_neg hservice]
      by_cases hwatch : command = str "watch"
      · have htopics : arguments ≠ [str "topics"] :=
          fun h => hno (.watch false) (by rw [hwatch, h]; rfl)
        have hservices : arguments ≠ [str "services"] :=
          fun h => hno (.watch true) (by rw [hwatch, h]; rfl)
        exact ⟨_, by rw [if_pos hwatch, if_neg htopics, if_neg hservices]⟩
      · exact ⟨_, by rw [if_neg hwatch]⟩

/-- How the commands end. -/
inductive Ends (env : Environment) (options : Options) : Command → Except Thrown Exit → Prop
  | asked {q : Query} {exit : Exit} (err : exit.err = [])
      (status : exit.status = 0 ∨ exit.status = kExitNotFound ∧ q.topic ≠ none) :
      Ends env options (.ask q) (.ok exit)
  | sniffed {topic : Str} {messages : List SniffedMessage} {exit : Exit}
      (opened : env.openSniffer options.discovery = .ok messages) (err : exit.err = [])
      (status : exit.status = 0) : Ends env options (.sniff topic) (.ok exit)
  | unopened {topic what : Str} (failed : env.openSniffer options.discovery = .error what) :
      Ends env options (.sniff topic) (.error (.other what))
  | watched {services : Bool} {exit : Exit} (err : exit.err = []) (status : exit.status = 0) :
      Ends env options (.watch services) (.ok exit)
  | examined {exit : Exit} (err : exit.err = []) (status : exit.status = 0) :
      Ends env options .doctor (.ok exit)

theorem ends_listOrInfo {E : Type} [EndpointInfo E] (env : Environment) (options : Options)
    (q : Query) (endpoints : List E) (details : List E → Str)
    (print : List E → OutputFormat → Str → OStream → OStream) :
    Ends env options (.ask q) (.ok (listOrInfo options q.topic endpoints details print)) := by
  cases htopic : q.topic with
  | none => exact .asked rfl (.inl rfl)
  | some topic =>
      refine .asked rfl ?_
      simp only [listOrInfo]
      split
      · exact .inr ⟨rfl, by simp [htopic]⟩
      · exact .inl rfl

theorem ends_topicSniff {env : Environment} {options : Options} (topic : Str)
    (hcheck : checkDiscovery env options.discovery.messagePort options.discovery.multicastGroup =
      .ok ()) :
    Ends env options (.sniff topic) (topicSniff env options) := by
  rw [topicSniff, hcheck]
  cases hopen : env.openSniffer options.discovery with
  | ok messages => exact .sniffed hopen rfl rfl
  | error what => exact .unopened hopen

/-- **Commands are run**: one branch for each. -/
theorem ends_run {env : Environment} {options : Options} {observer : DiscoveryObserver}
    {command : Command} (hok : options.Ok)
    (hmulticast : env.isMulticast options.discovery.multicastGroup = true)
    (hobserve : observe env options.discovery = .ok observer)
    (hcommand : options.positional = command.words) :
    Ends env options command (run env options) := by
  cases command with
  | ask q =>
      rw [run_query hcommand hobserve]
      split
      · exact ends_listOrInfo env options q _ _ _
      · exact ends_listOrInfo env options q _ _ _
  | sniff topic =>
      have hdoctor : str "topic" ≠ str "doctor" := by decide
      have hrun : run env options = topicSniff env options := by
        rw [run, hcommand]
        simp [Command.words, hobserve, hdoctor, bind, Except.bind]
      rw [hrun]
      exact ends_topicSniff topic (checkDiscovery_of_multicast hok.messagePort hmulticast)
  | watch services =>
      have hne : str "watch" ≠ str "doctor" ∧ str "watch" ≠ str "topic" ∧
          str "watch" ≠ str "service" := by decide
      have hservices : str "services" ≠ str "topics" := by decide
      rw [run, hcommand]
      cases services with
      | false =>
          simp only [Command.words, hobserve, bind, Except.bind, if_neg hne.1, if_neg hne.2.2,
            hne.2.1, false_and, if_false]
          exact .watched rfl rfl
      | true =>
          simp only [Command.words, hobserve, bind, Except.bind, if_neg hne.1, if_neg hne.2.2,
            hne.2.1, false_and, if_false, if_true, List.cons.injEq, hservices]
          exact .watched rfl rfl
  | doctor =>
      rw [run, hcommand]
      simp only [Command.words, hobserve, bind, Except.bind]
      exact .examined rfl rfl

theorem report_error_err (thrown : Thrown) :
    (report (.error thrown)).err ≠ [] ∧ (report (.error thrown)).out = [] := by
  have hname : str "rf-trans: " ≠ [] := by decide
  cases thrown <;> simp [report, hname]

namespace Ends

variable {env : Environment} {options : Options} {command : Command} {r : Except Thrown Exit}

/-- A command is no matter of usage any more. -/
theorem status_ne_usage (h : Ends env options command r) : (report r).status ≠ kExitUsage := by
  cases h with
  | asked err status =>
      rcases status with h | ⟨h, -⟩
      · simp [report, h, kExitUsage]
      · simp [report, h, kExitUsage, kExitNotFound]
  | sniffed opened err status => simp [report, status, kExitUsage]
  | unopened failed => simp [report, kExitUsage, kExitRuntime]
  | watched err status => simp [report, status, kExitUsage]
  | examined err status => simp [report, status, kExitUsage]

theorem status_runtime_iff (h : Ends env options command r) :
    (report r).status = kExitRuntime ↔
      ∃ topic what, command = .sniff topic ∧ env.openSniffer options.discovery = .error what := by
  cases h with
  | asked err status =>
      rcases status with h | ⟨h, -⟩
      · simp [report, h, kExitRuntime]
      · simp [report, h, kExitRuntime, kExitNotFound]
  | sniffed opened err status => simp [report, status, kExitRuntime, opened]
  | unopened failed => simp [report, failed]
  | watched err status => simp [report, status, kExitRuntime]
  | examined err status => simp [report, status, kExitRuntime]

theorem ask_of_status_notFound (h : Ends env options command r)
    (hstatus : (report r).status = kExitNotFound) :
    ∃ q, command = .ask q ∧ q.topic ≠ none := by
  cases h with
  | asked err status =>
      rcases status with h | ⟨-, htopic⟩
      · simp [report, h, kExitNotFound] at hstatus
      · exact ⟨_, rfl, htopic⟩
  | sniffed opened err status => simp [report, status, kExitNotFound] at hstatus
  | unopened failed => simp [report, kExitNotFound, kExitRuntime] at hstatus
  | watched err status => simp [report, status, kExitNotFound] at hstatus
  | examined err status => simp [report, status, kExitNotFound] at hstatus

/-- What goes well has nothing to complain of. -/
theorem err_eq_nil_or (h : Ends env options command r) :
    (report r).err = [] ∧ (report r).status ≠ kExitRuntime ∨
      (report r).err ≠ [] ∧ (report r).out = [] ∧ (report r).status = kExitRuntime := by
  cases h with
  | asked err status =>
      refine .inl ⟨err, ?_⟩
      rcases status with h | ⟨h, -⟩
      · simp [report, h, kExitRuntime]
      · simp [report, h, kExitRuntime, kExitNotFound]
  | sniffed opened err status => exact .inl ⟨err, by simp [report, status, kExitRuntime]⟩
  | unopened failed => exact .inr ⟨(report_error_err _).1, (report_error_err _).2, rfl⟩
  | watched err status => exact .inl ⟨err, by simp [report, status, kExitRuntime]⟩
  | examined err status => exact .inl ⟨err, by simp [report, status, kExitRuntime]⟩

end Ends

/-- A command that is invoked is run. -/
theorem main_of_invokes {env : Environment} {arguments : List Str} {options : Options}
    {command : Command} (hhelp : ∀ a ∈ arguments, a ≠ str "--help" ∧ a ≠ str "-h")
    (hopens : ∀ options, env.Opens options) (h : Invokes env arguments options command) :
    ∃ r, Ends env options command r ∧ main env arguments = report r := by
  obtain ⟨hparse, hmulticast, hcommand⟩ := h
  have hok := parseOptions_ok hparse
  obtain ⟨observer, hobserve⟩ := observe_of_multicast hok (hopens _) hmulticast
  exact ⟨_, ends_run hok hmulticast hobserve hcommand, main_of_parse hhelp hparse⟩

/-- What invokes no command is a matter of usage. -/
theorem main_of_not_invokes {env : Environment} {arguments : List Str}
    (hhelp : ∀ a ∈ arguments, a ≠ str "--help" ∧ a ≠ str "-h")
    (hopens : ∀ options, env.Opens options)
    (h : ∀ options command, ¬ Invokes env arguments options command) :
    (main env arguments).status = kExitUsage ∧ (main env arguments).err ≠ [] ∧
      (main env arguments).out = [] := by
  have hinvalid : ∀ what, main env arguments = report (.error (.invalidArgument what)) →
      (main env arguments).status = kExitUsage ∧ (main env arguments).err ≠ [] ∧
        (main env arguments).out = [] := by
    intro what heq
    rw [heq]
    exact ⟨rfl, report_error_err _⟩
  cases hparse : parseOptions arguments with
  | error what =>
      refine hinvalid what ?_
      rw [main, if_neg (not_any_help hhelp), hparse]
      rfl
  | ok options =>
      rw [main_of_parse hhelp hparse] at hinvalid ⊢
      have hok := parseOptions_ok hparse
      by_cases hpositional : options.positional = []
      · rw [run, hpositional]
        exact ⟨rfl, List.cons_ne_nil _ _, rfl⟩
      by_cases hmulticast : env.isMulticast options.discovery.multicastGroup = true
      · obtain ⟨observer, hobserve⟩ := observe_of_multicast hok (hopens _) hmulticast
        obtain ⟨what, hwhat⟩ := run_rejected hobserve hpositional fun command hcommand =>
          h options command ⟨hparse, hmulticast, hcommand⟩
        exact hinvalid what (by rw [hwhat])
      · obtain ⟨what, hwhat⟩ := observe_of_not_multicast hmulticast
        refine hinvalid what ?_
        rw [run]
        cases hp : options.positional with
        | nil => exact absurd hp hpositional
        | cons command arguments => rw [hwhat]; rfl

/-- **The exit status**, on a system where an observer can be opened: 2 for what is no command
and only for that, 4 for a sniffer that cannot be opened, 3 only for a topic of `info`; and the
tool complains in the first two cases only, without any other output. -/
theorem exit_status (env : Environment) {arguments : List Str}
    (hhelp : ∀ a ∈ arguments, a ≠ str "--help" ∧ a ≠ str "-h")
    (hopens : ∀ options, env.Opens options) :
    ((main env arguments).status = kExitUsage ↔
      ∀ options command, ¬ Invokes env arguments options command) ∧
    ((main env arguments).status = kExitRuntime ↔
      ∃ options topic what, Invokes env arguments options (.sniff topic) ∧
        env.openSniffer options.discovery = .error what) ∧
    ((main env arguments).status = kExitNotFound →
      ∃ options q, Invokes env arguments options (.ask q) ∧ q.topic ≠ none) ∧
    ((main env arguments).err ≠ [] ↔
      (main env arguments).status = kExitUsage ∨ (main env arguments).status = kExitRuntime) ∧
    ((main env arguments).err ≠ [] → (main env arguments).out = []) := by
  have hruntime : ∀ options topic what, Invokes env arguments options (.sniff topic) →
      env.openSniffer options.discovery = .error what →
      (main env arguments).status = kExitRuntime := by
    intro options topic what hinvokes hfailed
    obtain ⟨r, hends, hmain⟩ := main_of_invokes hhelp hopens hinvokes
    rw [hmain]
    exact hends.status_runtime_iff.mpr ⟨topic, what, rfl, hfailed⟩
  by_cases hno : ∀ options command, ¬ Invokes env arguments options command
  · obtain ⟨hstatus, herr, hout⟩ := main_of_not_invokes hhelp hopens hno
    have hne : kExitUsage ≠ kExitRuntime ∧ kExitUsage ≠ kExitNotFound := by decide
    rw [hstatus]
    refine ⟨by simp [hno], ⟨fun h => absurd h hne.1, ?_⟩, fun h => absurd h hne.2, by simp [herr],
      fun _ => hout⟩
    rintro ⟨options, topic, what, hinvokes, -⟩
    exact absurd hinvokes (hno _ _)
  · have hyes : ∃ options command, Invokes env arguments options command := by
      by_contra hnone
      exact hno fun options command h => hnone ⟨options, command, h⟩
    obtain ⟨options, command, hinvokes⟩ := hyes
    obtain ⟨r, hends, hmain⟩ := main_of_invokes hhelp hopens hinvokes
    rw [hmain] at hruntime ⊢
    have husage := hends.status_ne_usage
    refine ⟨by simp [husage, hno], ⟨fun h => ?_, ?_⟩, fun h => ?_, ?_, ?_⟩
    · obtain ⟨topic, what, rfl, hfailed⟩ := hends.status_runtime_iff.mp h
      exact ⟨options, topic, what, hinvokes, hfailed⟩
    · rintro ⟨options', topic, what, hinvokes', hfailed⟩
      exact hruntime options' topic what hinvokes' hfailed
    · obtain ⟨q, rfl, htopic⟩ := hends.ask_of_status_notFound h
      exact ⟨options, q, hinvokes, htopic⟩
    · rcases hends.err_eq_nil_or with ⟨herr, hne⟩ | ⟨herr, -, heq⟩
      · simp [herr, hne, husage]
      · simp [herr, heq]
    · intro herr
      rcases hends.err_eq_nil_or with ⟨hnil, -⟩ | ⟨-, hout, -⟩
      · exact absurd hnil herr
      · exact hout

/-- Nobody publishes `u`. -/
theorem exit_status_notFound :
    (main exampleEnvironment [str "topic", str "info", str "u"]).status = kExitNotFound ∧
    ∃ options q, Invokes exampleEnvironment [str "topic", str "info", str "u"] options (.ask q) ∧
      q.topic ≠ none := by
  have hstatus : (main exampleEnvironment [str "topic", str "info", str "u"]).status =
      kExitNotFound := by decide
  exact ⟨hstatus, (exit_status exampleEnvironment (by decide)
    (fun _ => ⟨⟨_, rfl⟩, _, rfl⟩)).2.2.1 hstatus⟩

end Tool
end RfTrans
