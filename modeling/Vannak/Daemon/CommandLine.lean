import Vannak.Cluster.Placement
import Vannak.Daemon.Http

/-!
# The command line

`parse_args` of `vannak.rs`. An option takes the arguments after it, some of them up to the next option, and what
stands between options is passed over. The configurations that come out are those that fit together, each of them from
the command line that spells it.
-/

namespace Vannak.Daemon

open Foundation Cluster Process

set_option autoImplicit false

structure RaftArgs where
  host : String
  port : UInt16
  peerId : String
  dataDir : String
  peers : List String

/-- A `usize` has 64 bits. -/
structure KafkaArgs where
  brokers : String
  groupId : String
  shards : UInt64
  mailboxCapacity : UInt64
  topics : List String

@[ext]
structure SupervisorConfig where
  raft : Option RaftArgs
  kafka : Option KafkaArgs
  healthBindAddress : Option String
  outboxPath : Option String
  outboxSegmentId : Option SegmentId
  outboxNodeId : Option NodeId
  processJournalPath : Option String
  writerIntervalSecs : UInt64
  placement : Option IptoPlacementMap
  withIpto : Bool
  iptoTenantId : Int64
  requireIpto : Bool
  maxRequestBodyBytes : UInt64

namespace SupervisorConfig

def default : SupervisorConfig where
  raft := none
  kafka := none
  healthBindAddress := none
  outboxPath := none
  outboxSegmentId := none
  outboxNodeId := none
  processJournalPath := none
  writerIntervalSecs := 5
  placement := none
  withIpto := false
  iptoTenantId := 1
  requireIpto := false
  maxRequestBodyBytes := 1024 * 1024

end SupervisorConfig

/-! ## The options -/

def usage : String :=
  "usage: vannak [probe <host> <port>] [options]

Commands:
  probe <host> <port>         Probe a running Vannak node for cluster summary

Options:
  --raft <host> <port> <peer-id> <data-dir> [peers...]
      Start Raft control-plane node
  --srv <service> <host> <port> <peer-id> <data-dir>
      Discover Raft peers via DNS SRV
  --kafka <brokers> <group-id> <shards> <mailbox-capacity> <topic> [<topic>...]
      Start Kafka process-event consumer (requires kafka-client feature)
  --health <bind-addr>
      Health/query HTTP server bind address (default: 127.0.0.1:9090)
  --outbox <segment-path> <segment-id> <node-id>
      Metadata outbox segment path and identity (default: data-dir/vannak or ~/.local/state/vannak)
  --journal <path>
      Process event journal segment path
  --max-request-body-bytes <bytes>
      Maximum accepted POST body size (default: 1048576)
  --writer-interval <secs>
      Background writer drain interval in seconds (default: 5)
  --with-ipto
      Try to start the PostgreSQL-backed Ipto writer (requires ipto-writer feature)
  --require-ipto
      Fail startup if --with-ipto cannot initialize the Ipto writer
  --ipto-tenant <id>
      Ipto tenant id for --with-ipto (default: 1)
  --placement <epoch> <target> <vnodes> [<target> <vnodes> ...]
      Ipto placement map (default: single ipto-default with 1 vnode)
"

/-- `starts_with("--")`. -/
def startsOption (arg : String) : Bool := arg.toList.take 2 = ['-', '-']

/-- `parse` of an unsigned integer below the limit. -/
def parseNumber (limit : Nat) (arg error : String) : Except String Nat :=
  match parseUnsigned limit arg.toList with
  | some value => .ok value
  | none => .error error

/-- `parse::<i64>`. -/
def parseInt64 : List Char → Option Int64
  | '-' :: digits => ((parseDigits digits).filter (· ≤ 2 ^ 63)).map fun value : Nat => Int64.ofInt (-value)
  | text => (parseUnsigned (2 ^ 63) text).map fun value : Nat => Int64.ofInt value

/-- The arguments up to the next option, and the others. -/
def takePositional (args : List String) : List String × List String := args.span fun arg => !startsOption arg

def parseRaft (config : SupervisorConfig) : List String → Except String (SupervisorConfig × List String)
  | host :: port :: peerId :: dataDir :: rest => do
    let port ← parseNumber (2 ^ 16) port "invalid raft port"
    let (peers, rest) := takePositional rest
    return ({ config with raft := some ⟨host, UInt16.ofNat port, peerId, dataDir, peers⟩ }, rest)
  | _ => .error usage

def parseSrv (resolveDnsSrv : String → String → List String) (config : SupervisorConfig) :
    List String → Except String (SupervisorConfig × List String)
  | service :: host :: port :: peerId :: dataDir :: rest => do
    let port ← parseNumber (2 ^ 16) port "invalid raft port"
    let peers := resolveDnsSrv service peerId
    return ({ config with raft := some ⟨host, UInt16.ofNat port, peerId, dataDir, peers⟩ }, rest)
  | _ => .error usage

def parseKafka (config : SupervisorConfig) : List String → Except String (SupervisorConfig × List String)
  | brokers :: groupId :: shards :: mailboxCapacity :: rest => do
    let shards ← parseNumber (2 ^ 64) shards "invalid shards"
    let mailboxCapacity ← parseNumber (2 ^ 64) mailboxCapacity "invalid mailbox capacity"
    let (topics, rest) := takePositional rest
    if topics = [] then .error "--kafka requires at least one topic"
    else .ok ({ config with
      kafka := some ⟨brokers, groupId, UInt64.ofNat shards, UInt64.ofNat mailboxCapacity, topics⟩ }, rest)
  | _ => .error usage

def parseHealth (config : SupervisorConfig) : List String → Except String (SupervisorConfig × List String)
  | address :: rest => .ok ({ config with healthBindAddress := some address }, rest)
  | [] => .error usage

def parseOutbox (config : SupervisorConfig) : List String → Except String (SupervisorConfig × List String)
  | path :: segmentId :: nodeId :: rest => .ok ({ config with
      outboxPath := some path
      outboxSegmentId := some ⟨segmentId⟩
      outboxNodeId := some ⟨nodeId⟩ }, rest)
  | _ => .error usage

def parseJournal (config : SupervisorConfig) : List String → Except String (SupervisorConfig × List String)
  | path :: rest => .ok ({ config with processJournalPath := some path }, rest)
  | [] => .error usage

def parseWriterInterval (config : SupervisorConfig) : List String → Except String (SupervisorConfig × List String)
  | interval :: rest => do
    let interval ← parseNumber (2 ^ 64) interval "invalid interval"
    if interval = 0 then .error "--writer-interval must be greater than zero"
    else .ok ({ config with writerIntervalSecs := UInt64.ofNat interval }, rest)
  | [] => .error usage

def parseIptoTenant (config : SupervisorConfig) : List String → Except String (SupervisorConfig × List String)
  | tenant :: rest =>
    match parseInt64 tenant.toList with
    | some tenant => .ok ({ config with iptoTenantId := tenant }, rest)
    | none => .error "invalid Ipto tenant id"
  | [] => .error usage

def parseMaxRequestBodyBytes (config : SupervisorConfig) :
    List String → Except String (SupervisorConfig × List String)
  | bytes :: rest => do
    let bytes ← parseNumber (2 ^ 64) bytes "invalid max request body size"
    if bytes = 0 then .error "--max-request-body-bytes must be greater than zero"
    else .ok ({ config with maxRequestBodyBytes := UInt64.ofNat bytes }, rest)
  | [] => .error usage

/-- The loop over the pairs. -/
def parseSlots (slots : List IptoPlacementSlot) :
    List String → Except String (List IptoPlacementSlot × List String)
  | target :: vnodes :: rest =>
    if startsOption target then .ok (slots, target :: vnodes :: rest)
    else if startsOption vnodes then .error "--placement target is missing a vnodes value"
    else do
      let vnodes ← parseNumber (2 ^ 32) vnodes "invalid vnodes"
      let slot ← (IptoPlacementSlot.new ⟨target⟩ (UInt32.ofNat vnodes)).mapError ClusterControlError.toText
      parseSlots (slots ++ [slot]) rest
  | rest => .ok (slots, rest)

def parsePlacement (config : SupervisorConfig) : List String → Except String (SupervisorConfig × List String)
  | epoch :: rest =>
    if startsOption epoch then .error "--placement requires an epoch and at least one target/vnodes pair"
    else do
      let epoch ← parseNumber (2 ^ 64) epoch "invalid placement epoch"
      let (slots, rest) ← parseSlots [] rest
      if slots = [] then .error "--placement requires at least one target/vnodes pair"
      else if rest.head?.any fun arg => !startsOption arg then
        .error "--placement requires complete target/vnodes pairs"
      else
        let placement ← (IptoPlacementMap.new (UInt64.ofNat epoch) slots []).mapError ClusterControlError.toText
        return ({ config with placement := some placement }, rest)
  | [] => .error "--placement requires an epoch and at least one target/vnodes pair"

/-- A round of the loop: the argument, and those after it. -/
def parseOption (resolveDnsSrv : String → String → List String) (config : SupervisorConfig) (option : String)
    (rest : List String) : Except String (SupervisorConfig × List String) :=
  if option = "--raft" then parseRaft config rest
  else if option = "--srv" then parseSrv resolveDnsSrv config rest
  else if option = "--kafka" then parseKafka config rest
  else if option = "--health" then parseHealth config rest
  else if option = "--outbox" then parseOutbox config rest
  else if option = "--journal" then parseJournal config rest
  else if option = "--writer-interval" then parseWriterInterval config rest
  else if option = "--with-ipto" then .ok ({ config with withIpto := true }, rest)
  else if option = "--require-ipto" then .ok ({ config with requireIpto := true }, rest)
  else if option = "--ipto-tenant" then parseIptoTenant config rest
  else if option = "--max-request-body-bytes" then parseMaxRequestBodyBytes config rest
  else if option = "--placement" then parsePlacement config rest
  else if startsOption option then .error ("unknown option " ++ option)
  else .ok (config, rest)

/-! ## What an option does -/

section Options

variable {resolveDnsSrv : String → String → List String} {config next : SupervisorConfig} {option : String}
  {args rest : List String}

theorem length_takePositional (args : List String) : (takePositional args).2.length ≤ args.length := by
  rw [takePositional, List.span_eq_takeWhile_dropWhile]
  exact (List.dropWhile_suffix _).length_le

/-- A slot that can be spelled. -/
def SpelledSlot (slot : IptoPlacementSlot) : Prop :=
  slot.vnodes ≠ 0 ∧ startsOption slot.instanceId.asStr = false

theorem parseSlots_ok {args rest : List String} {slots found : List IptoPlacementSlot}
    (h : parseSlots slots args = .ok (found, rest)) :
    rest.length ≤ args.length ∧ ((∀ slot ∈ slots, SpelledSlot slot) → ∀ slot ∈ found, SpelledSlot slot) := by
  match args with
  | [] =>
    cases h
    exact ⟨Nat.le_refl _, id⟩
  | [arg] =>
    cases h
    exact ⟨Nat.le_refl _, id⟩
  | target :: vnodes :: args =>
    rw [parseSlots] at h
    split at h
    · cases h
      exact ⟨Nat.le_refl _, id⟩
    · rename_i hTarget
      split at h
      · cases h
      · obtain ⟨count, -, hCount⟩ := ok_of_bind h
        obtain ⟨slot, hSlot, hRest⟩ := ok_of_bind hCount
        have hNew := ok_of_mapError hSlot
        rw [IptoPlacementSlot.new] at hNew
        split at hNew
        · cases hNew
        · rename_i hVnodes
          cases hNew
          obtain ⟨hLength, hSpelled⟩ := parseSlots_ok hRest
          refine ⟨Nat.le_succ_of_le (Nat.le_succ_of_le hLength), fun hSlots => hSpelled fun slot hSlot => ?_⟩
          rcases List.mem_append.mp hSlot with hOld | hLast
          · exact hSlots slot hOld
          · rw [List.mem_singleton.mp hLast]
            exact ⟨hVnodes, Bool.eq_false_of_not_eq_true hTarget⟩

/-- The peers are positional arguments, or what the resolver found. -/
def RaftArgs.Spelled (resolveDnsSrv : String → String → List String) (raft : RaftArgs) : Prop :=
  (∀ peer ∈ raft.peers, startsOption peer = false) ∨ ∃ service, raft.peers = resolveDnsSrv service raft.peerId

def KafkaArgs.Spelled (kafka : KafkaArgs) : Prop :=
  kafka.topics ≠ [] ∧ ∀ topic ∈ kafka.topics, startsOption topic = false

/-- Without overrides, and with the ring of its epoch. -/
def SpelledPlacement (map : IptoPlacementMap) : Prop :=
  map.overrides = [] ∧ map.ring.epoch = map.epoch ∧ ∀ slot ∈ map.slots, SpelledSlot slot

/-- What options can set. -/
structure Spelled (resolveDnsSrv : String → String → List String) (config : SupervisorConfig) : Prop where
  raft : ∀ raft ∈ config.raft, raft.Spelled resolveDnsSrv
  kafka : ∀ kafka ∈ config.kafka, kafka.Spelled
  segment : config.outboxSegmentId.isSome = config.outboxPath.isSome
  node : config.outboxNodeId.isSome = config.outboxPath.isSome
  interval : config.writerIntervalSecs ≠ 0
  placement : ∀ map ∈ config.placement, SpelledPlacement map
  bytes : config.maxRequestBodyBytes ≠ 0

theorem spelled_default : Spelled resolveDnsSrv .default where
  raft _ hNone := by cases hNone
  kafka _ hNone := by cases hNone
  segment := rfl
  node := rfl
  interval := by decide
  placement _ hNone := by cases hNone
  bytes := by decide

theorem startsOption_takePositional (args : List String) :
    ∀ arg ∈ (takePositional args).1, startsOption arg = false := by
  intro arg hArg
  rw [takePositional, List.span_eq_takeWhile_dropWhile] at hArg
  simpa using List.mem_takeWhile_imp hArg

theorem lt_of_parseNumber {limit n : Nat} {arg error : String} (h : parseNumber limit arg error = .ok n) :
    n < limit := by
  rw [parseNumber] at h
  split at h
  · rename_i hParsed
    cases h
    rw [parseUnsigned.eq_def] at hParsed
    simpa using (Option.filter_eq_some_iff.mp hParsed).2
  · cases h

theorem ofNat_ne_zero {n : Nat} (hPos : n ≠ 0) (hLt : n < 2 ^ 64) : UInt64.ofNat n ≠ 0 := by
  intro hZero
  have hNat := congrArg UInt64.toNat hZero
  rw [UInt64.toNat_ofNat_of_lt' hLt] at hNat
  exact hPos hNat

/-- What an option leaves of the arguments is no more than it found, and its configuration is spelled. -/
def Advances (resolveDnsSrv : String → String → List String) (config next : SupervisorConfig)
    (args rest : List String) : Prop :=
  rest.length ≤ args.length ∧ (Spelled resolveDnsSrv config → Spelled resolveDnsSrv next)

theorem advances_cons {arg : String} (hSpelled : Spelled resolveDnsSrv config → Spelled resolveDnsSrv next) :
    Advances resolveDnsSrv config next (arg :: rest) rest :=
  ⟨Nat.le_succ _, hSpelled⟩

theorem parseRaft_ok (h : parseRaft config args = .ok (next, rest)) :
    Advances resolveDnsSrv config next args rest := by
  rw [parseRaft.eq_def] at h
  split at h
  · rename_i host port peerId dataDir others
    obtain ⟨port, -, hPort⟩ := ok_of_bind h
    have hLength := length_takePositional others
    have hPeers := startsOption_takePositional others
    generalize takePositional others = taken at hPort hLength hPeers
    cases hPort
    constructor
    · simp only [List.length_cons]
      omega
    · intro hSpelled
      refine { hSpelled with raft := fun raft hRaft => ?_ }
      cases hRaft
      exact .inl hPeers
  · cases h

theorem parseSrv_ok (h : parseSrv resolveDnsSrv config args = .ok (next, rest)) :
    Advances resolveDnsSrv config next args rest := by
  rw [parseSrv.eq_def] at h
  split at h
  · rename_i service host port peerId dataDir others
    obtain ⟨port, -, hPort⟩ := ok_of_bind h
    cases hPort
    constructor
    · simp only [List.length_cons]
      omega
    · intro hSpelled
      refine { hSpelled with raft := fun raft hRaft => ?_ }
      cases hRaft
      exact .inr ⟨service, rfl⟩
  · cases h

theorem parseKafka_ok (h : parseKafka config args = .ok (next, rest)) :
    Advances resolveDnsSrv config next args rest := by
  rw [parseKafka.eq_def] at h
  split at h
  · rename_i brokers groupId shards mailboxCapacity others
    obtain ⟨shards, -, hShards⟩ := ok_of_bind h
    obtain ⟨mailboxCapacity, -, hTopics⟩ := ok_of_bind hShards
    have hLength := length_takePositional others
    have hPositional := startsOption_takePositional others
    generalize takePositional others = taken at hTopics hLength hPositional
    dsimp only at hTopics
    split at hTopics
    · cases hTopics
    · rename_i hNonempty
      cases hTopics
      constructor
      · simp only [List.length_cons]
        omega
      · intro hSpelled
        refine { hSpelled with kafka := fun kafka hKafka => ?_ }
        cases hKafka
        exact ⟨hNonempty, hPositional⟩
  · cases h

theorem parseHealth_ok (h : parseHealth config args = .ok (next, rest)) :
    Advances resolveDnsSrv config next args rest := by
  rw [parseHealth.eq_def] at h
  split at h
  · cases h
    exact advances_cons fun hSpelled => { hSpelled with }
  · cases h

theorem parseOutbox_ok (h : parseOutbox config args = .ok (next, rest)) :
    Advances resolveDnsSrv config next args rest := by
  rw [parseOutbox.eq_def] at h
  split at h
  · cases h
    constructor
    · simp only [List.length_cons]
      omega
    · exact fun hSpelled => { hSpelled with segment := rfl, node := rfl }
  · cases h

theorem parseJournal_ok (h : parseJournal config args = .ok (next, rest)) :
    Advances resolveDnsSrv config next args rest := by
  rw [parseJournal.eq_def] at h
  split at h
  · cases h
    exact advances_cons fun hSpelled => { hSpelled with }
  · cases h

theorem parseWriterInterval_ok (h : parseWriterInterval config args = .ok (next, rest)) :
    Advances resolveDnsSrv config next args rest := by
  rw [parseWriterInterval.eq_def] at h
  split at h
  · obtain ⟨interval, hParsed, hInterval⟩ := ok_of_bind h
    split at hInterval
    · cases hInterval
    · rename_i hPos
      cases hInterval
      exact advances_cons fun hSpelled =>
        { hSpelled with interval := ofNat_ne_zero hPos (lt_of_parseNumber hParsed) }
  · cases h

theorem parseIptoTenant_ok (h : parseIptoTenant config args = .ok (next, rest)) :
    Advances resolveDnsSrv config next args rest := by
  rw [parseIptoTenant.eq_def] at h
  split at h
  · split at h
    · cases h
      exact advances_cons fun hSpelled => { hSpelled with }
    · cases h
  · cases h

theorem parseMaxRequestBodyBytes_ok (h : parseMaxRequestBodyBytes config args = .ok (next, rest)) :
    Advances resolveDnsSrv config next args rest := by
  rw [parseMaxRequestBodyBytes.eq_def] at h
  split at h
  · obtain ⟨bytes, hParsed, hBytes⟩ := ok_of_bind h
    split at hBytes
    · cases hBytes
    · rename_i hPos
      cases hBytes
      exact advances_cons fun hSpelled => { hSpelled with bytes := ofNat_ne_zero hPos (lt_of_parseNumber hParsed) }
  · cases h

theorem parsePlacement_ok (h : parsePlacement config args = .ok (next, rest)) :
    Advances resolveDnsSrv config next args rest := by
  rw [parsePlacement.eq_def] at h
  split at h
  · rename_i epoch others
    split at h
    · cases h
    · obtain ⟨epoch, -, hEpoch⟩ := ok_of_bind h
      obtain ⟨⟨slots, remaining⟩, hSlots, hPlacement⟩ := ok_of_bind hEpoch
      obtain ⟨hLength, hSpelledSlots⟩ := parseSlots_ok hSlots
      dsimp only at hPlacement
      split at hPlacement
      · cases hPlacement
      · split at hPlacement
        · cases hPlacement
        · obtain ⟨map, hMap, hNext⟩ := ok_of_bind hPlacement
          obtain ⟨hMapEpoch, hMapSlots, hRing, hOverrides⟩ := IptoPlacementMap.eq_of_new (ok_of_mapError hMap)
          cases hNext
          constructor
          · exact Nat.le_succ_of_le hLength
          · intro hSpelled
            refine { hSpelled with placement := fun found hFound => ?_ }
            cases hFound
            refine ⟨hOverrides, by rw [hRing, hMapEpoch]; rfl, ?_⟩
            rw [hMapSlots]
            exact hSpelledSlots (List.forall_mem_nil _)
  · cases h

theorem of_ite {α : Type} {condition : Prop} [Decidable condition] {first second found : α}
    (h : (if condition then first else second) = found) : first = found ∨ second = found := by
  split at h
  · exact .inl h
  · exact .inr h

theorem parseOption_ok (h : parseOption resolveDnsSrv config option args = .ok (next, rest)) :
    Advances resolveDnsSrv config next args rest := by
  rw [parseOption] at h
  obtain h | h := of_ite h
  · exact parseRaft_ok h
  obtain h | h := of_ite h
  · exact parseSrv_ok h
  obtain h | h := of_ite h
  · exact parseKafka_ok h
  obtain h | h := of_ite h
  · exact parseHealth_ok h
  obtain h | h := of_ite h
  · exact parseOutbox_ok h
  obtain h | h := of_ite h
  · exact parseJournal_ok h
  obtain h | h := of_ite h
  · exact parseWriterInterval_ok h
  obtain h | h := of_ite h
  · cases h
    exact ⟨Nat.le_refl _, fun hSpelled => { hSpelled with }⟩
  obtain h | h := of_ite h
  · cases h
    exact ⟨Nat.le_refl _, fun hSpelled => { hSpelled with }⟩
  obtain h | h := of_ite h
  · exact parseIptoTenant_ok h
  obtain h | h := of_ite h
  · exact parseMaxRequestBodyBytes_ok h
  obtain h | h := of_ite h
  · exact parsePlacement_ok h
  obtain h | h := of_ite h
  · cases h
  · cases h
    exact ⟨Nat.le_refl _, id⟩

end Options

/-! ## The loop -/

section Loop

variable (resolveDnsSrv : String → String → List String)

def parseFrom (config : SupervisorConfig) : List String → Except String SupervisorConfig
  | [] => .ok config
  | option :: args =>
    match _hOption : parseOption resolveDnsSrv config option args with
    | .error error => .error error
    | .ok (config, rest) => parseFrom config rest
termination_by args => args.length
decreasing_by exact Nat.lt_succ_of_le (parseOption_ok _hOption).1

def parseArgs (args : List String) : Except String SupervisorConfig := do
  let config ← parseFrom resolveDnsSrv .default args
  if config.requireIpto && !config.withIpto then .error "--require-ipto requires --with-ipto" else .ok config

variable {resolveDnsSrv} {config next : SupervisorConfig}

theorem parseFrom_cons {option : String} {args : List String} :
    parseFrom resolveDnsSrv config (option :: args) = (do
      let (config, rest) ← parseOption resolveDnsSrv config option args
      parseFrom resolveDnsSrv config rest) := by
  rw [parseFrom]
  split
  · rename_i hOption
    rw [hOption]
    rfl
  · rename_i hOption
    rw [hOption]
    rfl

theorem spelled_parseFrom {config : SupervisorConfig} {args : List String}
    (h : parseFrom resolveDnsSrv config args = .ok next)
    (hSpelled : Spelled resolveDnsSrv config) : Spelled resolveDnsSrv next := by
  match args with
  | [] =>
    rw [parseFrom] at h
    cases h
    exact hSpelled
  | option :: args =>
    rw [parseFrom_cons] at h
    obtain ⟨⟨found, rest⟩, hOption, hNext⟩ := ok_of_bind h
    obtain ⟨hLength, hFound⟩ := parseOption_ok hOption
    have hRest : parseFrom resolveDnsSrv found rest = .ok next := hNext
    exact spelled_parseFrom hRest (hFound hSpelled)
termination_by args.length
decreasing_by exact Nat.lt_succ_of_le hLength

/-! ## The command line of a configuration -/

/-- Nothing more, or another option. -/
def Fresh (rest : List String) : Prop := ∀ arg ∈ rest.head?, startsOption arg = true

/-- An option with its arguments, and what it does to a configuration. -/
structure OptionUse where
  option : String
  values : List String
  effect : SupervisorConfig → SupervisorConfig

def OptionUse.args (use : OptionUse) : List String := use.option :: use.values

variable (resolveDnsSrv) in
/-- The option takes exactly its arguments. -/
def OptionUse.Reads (use : OptionUse) : Prop :=
  startsOption use.option = true ∧ ∀ config rest, Fresh rest →
    parseOption resolveDnsSrv config use.option (use.values ++ rest) = .ok (use.effect config, rest)

theorem fresh_uses {uses : List OptionUse} (h : ∀ use ∈ uses, use.Reads resolveDnsSrv) :
    Fresh (uses.flatMap OptionUse.args) := by
  intro arg hArg
  cases uses with
  | nil => cases hArg
  | cons use uses =>
    cases hArg
    exact (h use List.mem_cons_self).1

theorem parseFrom_uses {uses : List OptionUse} (h : ∀ use ∈ uses, use.Reads resolveDnsSrv)
    (config : SupervisorConfig) :
    parseFrom resolveDnsSrv config (uses.flatMap OptionUse.args) =
      .ok (uses.foldl (fun config use => use.effect config) config) := by
  induction uses generalizing config with
  | nil => rw [List.flatMap_nil, parseFrom, List.foldl_nil]
  | cons use uses ih =>
    obtain ⟨hUse, hUses⟩ := List.forall_mem_cons.mp h
    rw [List.flatMap_cons, OptionUse.args, List.cons_append, parseFrom_cons, hUse.2 config _ (fresh_uses hUses)]
    exact ih hUses _

end Loop

/-! ## Arguments that are read as they were written -/

theorem parseNumber_toString {limit n : Nat} (h : n < limit) (error : String) :
    parseNumber limit (toString n) error = .ok n := by
  rw [parseNumber, parseUnsigned_toString h]

theorem parseDigits_toString (n : Nat) : parseDigits (toString n).toList = some n := by
  have hDigits : ∀ digit ∈ (toString n).toList, digit.isDigit = true := fun _ => isDigit_of_mem_toString
  rw [parseDigits, if_pos ⟨toString_ne_nil n, List.all_eq_true.mpr hDigits⟩, toList_toString,
    ← Nat.ofDigitChars_eq_foldl, Nat.ofDigitChars_ten_toDigits]

theorem not_startsOption_toString (n : Nat) : ¬startsOption (toString n) := by
  rw [startsOption, decide_eq_true_eq]
  intro hDashes
  refine @not_mem_toString '-' (by decide) n (@List.mem_of_mem_take _ 2 _ _ ?_)
  rw [hDashes]
  exact List.mem_cons_self

theorem parseInt64_toString (value : Int64) : parseInt64 (toString value.toInt).toList = some value := by
  have hLower := Int64.le_toInt value
  have hUpper := Int64.toInt_lt value
  cases hValue : value.toInt with
  | ofNat n =>
    have hNat : (toString (Int.ofNat n)).toList = (toString n).toList := rfl
    rw [hNat, parseInt64.eq_def]
    split
    · rename_i digits hDash
      exact absurd (hDash ▸ List.mem_cons_self) (@not_mem_toString '-' (by decide) n)
    · rw [hValue] at hUpper
      have hLt : n < 2 ^ 63 := Int.ofNat_lt.mp hUpper
      rw [parseUnsigned_toString hLt, Option.map_some]
      exact congrArg some ((congrArg Int64.ofInt hValue.symm).trans (Int64.ofInt_toInt value))
  | negSucc n =>
    have hNat : (toString (Int.negSucc n)).toList = '-' :: (toString (n + 1)).toList := by
      change ("-" ++ toString (n + 1)).toList = _
      simp
    rw [hValue] at hLower
    have hLe : n + 1 ≤ 2 ^ 63 := by omega
    rw [hNat, parseInt64, parseDigits_toString, Option.filter_some, if_pos (decide_eq_true hLe), Option.map_some]
    exact congrArg some ((congrArg Int64.ofInt hValue.symm).trans (Int64.ofInt_toInt value))

section Uses

variable {resolveDnsSrv : String → String → List String}

theorem takePositional_append {values rest : List String} (hValues : ∀ arg ∈ values, startsOption arg = false)
    (hRest : Fresh rest) : takePositional (values ++ rest) = (values, rest) := by
  have hPositional : ∀ arg ∈ values, (!startsOption arg) = true := fun arg hArg => by rw [hValues arg hArg]; rfl
  have hStops : rest.takeWhile (fun arg => !startsOption arg) = [] ∧
      rest.dropWhile (fun arg => !startsOption arg) = rest := by
    cases rest with
    | nil => exact ⟨rfl, rfl⟩
    | cons option rest =>
      have hOption : startsOption option = true := hRest option rfl
      exact ⟨List.takeWhile_cons_of_neg (by simp [hOption]), List.dropWhile_cons_of_neg (by simp [hOption])⟩
  rw [takePositional, List.span_eq_takeWhile_dropWhile, List.takeWhile_append_of_pos hPositional,
    List.dropWhile_append_of_pos hPositional, hStops.1, hStops.2, List.append_nil]

def raftUse (raft : RaftArgs) : OptionUse where
  option := "--raft"
  values := raft.host :: toString raft.port.toNat :: raft.peerId :: raft.dataDir :: raft.peers
  effect config := { config with raft := some raft }

theorem reads_raftUse {raft : RaftArgs} (h : ∀ peer ∈ raft.peers, startsOption peer = false) :
    (raftUse raft).Reads resolveDnsSrv := by
  refine ⟨(by decide : startsOption "--raft" = true), fun config rest hRest => ?_⟩
  change parseRaft config (raft.host :: toString raft.port.toNat :: raft.peerId :: raft.dataDir ::
    (raft.peers ++ rest)) = _
  rw [parseRaft, parseNumber_toString raft.port.toNat_lt, takePositional_append h hRest]
  simp [Bind.bind, Except.bind, pure, Except.pure, raftUse]

def srvUse (service : String) (raft : RaftArgs) : OptionUse where
  option := "--srv"
  values := [service, raft.host, toString raft.port.toNat, raft.peerId, raft.dataDir]
  effect config := { config with raft := some raft }

theorem reads_srvUse {service : String} {raft : RaftArgs} (h : raft.peers = resolveDnsSrv service raft.peerId) :
    (srvUse service raft).Reads resolveDnsSrv := by
  refine ⟨(by decide : startsOption "--srv" = true), fun config rest _ => ?_⟩
  obtain ⟨host, port, peerId, dataDir, peers⟩ := raft
  obtain rfl : peers = resolveDnsSrv service peerId := h
  change parseSrv resolveDnsSrv config (service :: host :: toString port.toNat :: peerId :: dataDir :: rest) = _
  rw [parseSrv, parseNumber_toString port.toNat_lt]
  simp [Bind.bind, Except.bind, pure, Except.pure, srvUse]

def kafkaUse (kafka : KafkaArgs) : OptionUse where
  option := "--kafka"
  values := kafka.brokers :: kafka.groupId :: toString kafka.shards.toNat :: toString kafka.mailboxCapacity.toNat ::
    kafka.topics
  effect config := { config with kafka := some kafka }

theorem reads_kafkaUse {kafka : KafkaArgs} (h : kafka.Spelled) : (kafkaUse kafka).Reads resolveDnsSrv := by
  refine ⟨(by decide : startsOption "--kafka" = true), fun config rest hRest => ?_⟩
  change parseKafka config (kafka.brokers :: kafka.groupId :: toString kafka.shards.toNat ::
    toString kafka.mailboxCapacity.toNat :: (kafka.topics ++ rest)) = _
  rw [parseKafka, parseNumber_toString kafka.shards.toNat_lt, parseNumber_toString kafka.mailboxCapacity.toNat_lt,
    takePositional_append h.2 hRest]
  simp [Bind.bind, Except.bind, if_neg h.1, kafkaUse]

def healthUse (address : String) : OptionUse :=
  ⟨"--health", [address], fun config => { config with healthBindAddress := some address }⟩

theorem reads_healthUse (address : String) : (healthUse address).Reads resolveDnsSrv := by
  exact ⟨(by decide : startsOption "--health" = true), fun _ _ _ => rfl⟩

def outboxUse (path : String) (segmentId : SegmentId) (nodeId : NodeId) : OptionUse where
  option := "--outbox"
  values := [path, segmentId.asStr, nodeId.asStr]
  effect config := { config with
    outboxPath := some path
    outboxSegmentId := some segmentId
    outboxNodeId := some nodeId }

theorem reads_outboxUse (path : String) (segmentId : SegmentId) (nodeId : NodeId) :
    (outboxUse path segmentId nodeId).Reads resolveDnsSrv := by
  exact ⟨(by decide : startsOption "--outbox" = true), fun _ _ _ => rfl⟩

def journalUse (path : String) : OptionUse :=
  ⟨"--journal", [path], fun config => { config with processJournalPath := some path }⟩

theorem reads_journalUse (path : String) : (journalUse path).Reads resolveDnsSrv := by
  exact ⟨(by decide : startsOption "--journal" = true), fun _ _ _ => rfl⟩

theorem toNat_ne_zero {value : UInt64} (h : value ≠ 0) : value.toNat ≠ 0 := fun hZero => h (UInt64.toNat_inj.mp hZero)

def intervalUse (interval : UInt64) : OptionUse where
  option := "--writer-interval"
  values := [toString interval.toNat]
  effect config := { config with writerIntervalSecs := interval }

theorem reads_intervalUse {interval : UInt64} (h : interval ≠ 0) : (intervalUse interval).Reads resolveDnsSrv := by
  refine ⟨(by decide : startsOption "--writer-interval" = true), fun config rest _ => ?_⟩
  change parseWriterInterval config (toString interval.toNat :: rest) = _
  rw [parseWriterInterval, parseNumber_toString interval.toNat_lt]
  simp [Bind.bind, Except.bind, if_neg (toNat_ne_zero h), intervalUse]

def withIptoUse : OptionUse := ⟨"--with-ipto", [], fun config => { config with withIpto := true }⟩

theorem reads_withIptoUse : withIptoUse.Reads resolveDnsSrv := by
  exact ⟨(by decide : startsOption "--with-ipto" = true), fun _ _ _ => rfl⟩

def requireIptoUse : OptionUse := ⟨"--require-ipto", [], fun config => { config with requireIpto := true }⟩

theorem reads_requireIptoUse : requireIptoUse.Reads resolveDnsSrv := by
  exact ⟨(by decide : startsOption "--require-ipto" = true), fun _ _ _ => rfl⟩

def tenantUse (tenant : Int64) : OptionUse :=
  ⟨"--ipto-tenant", [toString tenant.toInt], fun config => { config with iptoTenantId := tenant }⟩

theorem reads_tenantUse (tenant : Int64) : (tenantUse tenant).Reads resolveDnsSrv := by
  refine ⟨(by decide : startsOption "--ipto-tenant" = true), fun config rest _ => ?_⟩
  change parseIptoTenant config (toString tenant.toInt :: rest) = _
  rw [parseIptoTenant, parseInt64_toString]
  rfl

def bytesUse (bytes : UInt64) : OptionUse where
  option := "--max-request-body-bytes"
  values := [toString bytes.toNat]
  effect config := { config with maxRequestBodyBytes := bytes }

theorem reads_bytesUse {bytes : UInt64} (h : bytes ≠ 0) : (bytesUse bytes).Reads resolveDnsSrv := by
  refine ⟨(by decide : startsOption "--max-request-body-bytes" = true), fun config rest _ => ?_⟩
  change parseMaxRequestBodyBytes config (toString bytes.toNat :: rest) = _
  rw [parseMaxRequestBodyBytes, parseNumber_toString bytes.toNat_lt]
  simp [Bind.bind, Except.bind, if_neg (toNat_ne_zero h), bytesUse]

def slotArgs (slot : IptoPlacementSlot) : List String := [slot.instanceId.asStr, toString slot.vnodes.toNat]

theorem parseSlots_append {found : List IptoPlacementSlot} (h : ∀ slot ∈ found, SpelledSlot slot)
    {rest : List String} (hRest : Fresh rest) (slots : List IptoPlacementSlot) :
    parseSlots slots (found.flatMap slotArgs ++ rest) = .ok (slots ++ found, rest) := by
  induction found generalizing slots with
  | nil =>
    rw [List.flatMap_nil, List.nil_append, List.append_nil]
    match rest with
    | [] | [_] => rfl
    | option :: next :: rest =>
      have hOption : startsOption option = true := hRest option rfl
      rw [parseSlots, if_pos hOption]
  | cons slot found ih =>
    obtain ⟨⟨hVnodes, hTarget⟩, hFound⟩ := List.forall_mem_cons.mp h
    have hNew : IptoPlacementSlot.new slot.instanceId slot.vnodes = .ok slot := if_neg hVnodes
    rw [List.flatMap_cons, slotArgs, List.append_assoc, List.cons_append, List.singleton_append, parseSlots,
      if_neg (by simp [hTarget]), if_neg (not_startsOption_toString _),
      parseNumber_toString slot.vnodes.toNat_lt]
    simp only [Bind.bind, Except.bind, UInt32.ofNat_toNat, hNew, Except.mapError]
    rw [ih hFound, List.append_assoc, List.singleton_append]

def placementUse (map : IptoPlacementMap) : OptionUse where
  option := "--placement"
  values := toString map.epoch.toNat :: map.slots.flatMap slotArgs
  effect config := { config with placement := some map }

theorem reads_placementUse {map : IptoPlacementMap} (h : SpelledPlacement map) :
    (placementUse map).Reads resolveDnsSrv := by
  obtain ⟨hOverrides, hRing, hSlots⟩ := h
  have hNew := IptoPlacementMap.new_self hRing
  rw [hOverrides] at hNew
  refine ⟨(by decide : startsOption "--placement" = true), fun config rest hRest => ?_⟩
  have hComplete : (rest.head?.any fun arg => !startsOption arg) = false := by
    cases rest with
    | nil => rfl
    | cons option rest =>
      have hOption : startsOption option = true := hRest option rfl
      simp [hOption]
  change parsePlacement config (toString map.epoch.toNat :: (map.slots.flatMap slotArgs ++ rest)) = _
  rw [parsePlacement, if_neg (not_startsOption_toString _), parseNumber_toString map.epoch.toNat_lt]
  simp [Bind.bind, Except.bind, pure, Except.pure, parseSlots_append hSlots hRest, map.slots_ne_nil, hComplete, hNew,
    Except.mapError, placementUse]

end Uses

/-! ## What can be configured -/

section Configurations

variable {resolveDnsSrv : String → String → List String} {base middle next : SupervisorConfig}

variable (resolveDnsSrv) in
/-- There are options that make one configuration of another. -/
def Leads (base next : SupervisorConfig) : Prop :=
  ∃ uses : List OptionUse, (∀ use ∈ uses, use.Reads resolveDnsSrv) ∧
    uses.foldl (fun config use => use.effect config) base = next

namespace Leads

theorem refl (config : SupervisorConfig) : Leads resolveDnsSrv config config := ⟨[], List.forall_mem_nil _, rfl⟩

theorem trans (h : Leads resolveDnsSrv base middle) (hNext : Leads resolveDnsSrv middle next) :
    Leads resolveDnsSrv base next := by
  obtain ⟨first, hFirst, rfl⟩ := h
  obtain ⟨second, hSecond, rfl⟩ := hNext
  refine ⟨first ++ second, fun use hUse => ?_, List.foldl_append⟩
  rcases List.mem_append.mp hUse with hUse | hUse
  · exact hFirst use hUse
  · exact hSecond use hUse

theorem use {use : OptionUse} (h : use.Reads resolveDnsSrv) (base : SupervisorConfig) :
    Leads resolveDnsSrv base (use.effect base) :=
  ⟨[use], List.forall_mem_singleton.mpr h, rfl⟩

/-- A field that is not set yet is set, or left as it is. -/
theorem optional {α : Type} (set : Option α → SupervisorConfig) {value : Option α}
    (hSome : ∀ found ∈ value, Leads resolveDnsSrv (set none) (set (some found))) :
    Leads resolveDnsSrv (set none) (set value) := by
  cases value with
  | none => exact refl _
  | some found => exact hSome found rfl

theorem flag (set : Bool → SupervisorConfig) (hTrue : Leads resolveDnsSrv (set false) (set true)) (value : Bool) :
    Leads resolveDnsSrv (set false) (set value) := by
  cases value with
  | false => exact refl _
  | true => exact hTrue

instance : Trans (Leads resolveDnsSrv) (Leads resolveDnsSrv) (Leads resolveDnsSrv) := ⟨trans⟩

end Leads

theorem leads_of_spelled {config : SupervisorConfig} (h : Spelled resolveDnsSrv config) :
    Leads resolveDnsSrv .default config := by
  obtain ⟨raft, kafka, healthBindAddress, outboxPath, outboxSegmentId, outboxNodeId, processJournalPath,
    writerIntervalSecs, placement, withIpto, iptoTenantId, requireIpto, maxRequestBodyBytes⟩ := config
  obtain ⟨hRaft, hKafka, hSegment, hNode, hInterval, hPlacement, hBytes⟩ := h
  dsimp only at hRaft hKafka hSegment hNode hInterval hPlacement hBytes
  have hOutbox : Leads resolveDnsSrv { SupervisorConfig.default with raft, kafka, healthBindAddress }
      { SupervisorConfig.default with
        raft, kafka, healthBindAddress, outboxPath, outboxSegmentId, outboxNodeId } := by
    cases outboxPath with
    | none =>
      rw [Option.isSome_none, Option.isSome_eq_false_iff, Option.isNone_iff_eq_none] at hSegment hNode
      rw [hSegment, hNode]
      exact .refl _
    | some path =>
      obtain ⟨segmentId, rfl⟩ := Option.isSome_iff_exists.mp hSegment
      obtain ⟨nodeId, rfl⟩ := Option.isSome_iff_exists.mp hNode
      exact .use (reads_outboxUse path segmentId nodeId) _
  calc
    Leads resolveDnsSrv .default { SupervisorConfig.default with raft } := by
      refine .optional (fun raft => { SupervisorConfig.default with raft }) fun found hFound => ?_
      rcases hRaft found hFound with hPeers | ⟨service, hResolved⟩
      · exact .use (reads_raftUse hPeers) _
      · exact .use (reads_srvUse hResolved) _
    Leads resolveDnsSrv _ { SupervisorConfig.default with raft, kafka } :=
      .optional (fun kafka => { SupervisorConfig.default with raft, kafka })
        fun found hFound => .use (reads_kafkaUse (hKafka found hFound)) _
    Leads resolveDnsSrv _ { SupervisorConfig.default with raft, kafka, healthBindAddress } :=
      .optional (fun healthBindAddress => { SupervisorConfig.default with raft, kafka, healthBindAddress })
        fun found _ => .use (reads_healthUse found) _
    Leads resolveDnsSrv _ { SupervisorConfig.default with
        raft, kafka, healthBindAddress, outboxPath, outboxSegmentId, outboxNodeId } := hOutbox
    Leads resolveDnsSrv _ { SupervisorConfig.default with
        raft, kafka, healthBindAddress, outboxPath, outboxSegmentId, outboxNodeId, processJournalPath } :=
      .optional (fun processJournalPath => { SupervisorConfig.default with
        raft, kafka, healthBindAddress, outboxPath, outboxSegmentId, outboxNodeId, processJournalPath })
        fun found _ => .use (reads_journalUse found) _
    Leads resolveDnsSrv _ { SupervisorConfig.default with
        raft, kafka, healthBindAddress, outboxPath, outboxSegmentId, outboxNodeId, processJournalPath
        writerIntervalSecs } := .use (reads_intervalUse hInterval) _
    Leads resolveDnsSrv _ { SupervisorConfig.default with
        raft, kafka, healthBindAddress, outboxPath, outboxSegmentId, outboxNodeId, processJournalPath
        writerIntervalSecs, placement } :=
      .optional (fun placement => { SupervisorConfig.default with
        raft, kafka, healthBindAddress, outboxPath, outboxSegmentId, outboxNodeId, processJournalPath
        writerIntervalSecs, placement })
        fun found hFound => .use (reads_placementUse (hPlacement found hFound)) _
    Leads resolveDnsSrv _ { SupervisorConfig.default with
        raft, kafka, healthBindAddress, outboxPath, outboxSegmentId, outboxNodeId, processJournalPath
        writerIntervalSecs, placement, withIpto } :=
      .flag (fun withIpto => { SupervisorConfig.default with
        raft, kafka, healthBindAddress, outboxPath, outboxSegmentId, outboxNodeId, processJournalPath
        writerIntervalSecs, placement, withIpto }) (.use reads_withIptoUse _) withIpto
    Leads resolveDnsSrv _ { SupervisorConfig.default with
        raft, kafka, healthBindAddress, outboxPath, outboxSegmentId, outboxNodeId, processJournalPath
        writerIntervalSecs, placement, withIpto, iptoTenantId } := .use (reads_tenantUse iptoTenantId) _
    Leads resolveDnsSrv _ { SupervisorConfig.default with
        raft, kafka, healthBindAddress, outboxPath, outboxSegmentId, outboxNodeId, processJournalPath
        writerIntervalSecs, placement, withIpto, iptoTenantId, requireIpto } :=
      .flag (fun requireIpto => { SupervisorConfig.default with
        raft, kafka, healthBindAddress, outboxPath, outboxSegmentId, outboxNodeId, processJournalPath
        writerIntervalSecs, placement, withIpto, iptoTenantId, requireIpto }) (.use reads_requireIptoUse _) requireIpto
    Leads resolveDnsSrv _ ⟨raft, kafka, healthBindAddress, outboxPath, outboxSegmentId, outboxNodeId,
        processJournalPath, writerIntervalSecs, placement, withIpto, iptoTenantId, requireIpto,
        maxRequestBodyBytes⟩ := .use (reads_bytesUse hBytes) _

theorem command_line_exact (resolveDnsSrv : String → String → List String) (config : SupervisorConfig) :
    (∃ args, parseArgs resolveDnsSrv args = .ok config) ↔
      Spelled resolveDnsSrv config ∧ (config.requireIpto = true → config.withIpto = true) := by
  constructor
  · rintro ⟨args, hArgs⟩
    obtain ⟨found, hFound, hChecked⟩ := ok_of_bind hArgs
    have hSpelled := spelled_parseFrom hFound spelled_default
    split at hChecked
    · cases hChecked
    · rename_i hRequire
      cases hChecked
      refine ⟨hSpelled, fun hRequired => ?_⟩
      simpa [hRequired] using hRequire
  · rintro ⟨hSpelled, hRequire⟩
    obtain ⟨uses, hUses, hConfig⟩ := leads_of_spelled hSpelled
    refine ⟨uses.flatMap OptionUse.args, ?_⟩
    rw [parseArgs, parseFrom_uses hUses, hConfig]
    cases hRequired : config.requireIpto with
    | false => simp [Bind.bind, Except.bind, hRequired]
    | true => simp [Bind.bind, Except.bind, hRequired, hRequire hRequired]

end Configurations

end Vannak.Daemon
