import BottledWater.Producer

/-! Command-line configuration: `parse_options` and what it calls, from the settings `init_client`
and `init_producer` leave. `getopt_long` is outside this file: the model takes the options it
returns, in order with their arguments, and whether arguments remain (`optind < argc`); what the
schema registry and librdkafka's configuration calls answer is `ConfigEnv`, and `usage`,
`--config-help` and the configuration errors end the process (`ConfigExit`). `parse_options`
returns exactly when every option is accepted, a connection string is given, no argument is left
and the registry agrees with the format, and then returns the settings the options ask for
(`parseOptions_ok_iff`), which the producer's `switch`es know (`parseOptions_valid`).
`parse_config_option` inverts joining a property without `=` to a value
(`parseConfigOption_round_trip`). -/

namespace BottledWater

/-- `DEFAULT_REPLICATION_SLOT`. -/
def defaultReplicationSlot : String := "bottledwater"

/-- `DEFAULT_BROKER_LIST`. -/
def defaultBrokerList : String := "localhost:9092"

/-- `DEFAULT_SCHEMA_REGISTRY`. -/
def defaultSchemaRegistry : String := "http://localhost:8081"

/-- `DEFAULT_OUTPUT_FORMAT_NAME`, the default the usage text names. -/
def defaultOutputFormatName : String := "avro"

/-- `DEFAULT_OUTPUT_FORMAT`. -/
def defaultOutputFormat : OutputFormat := .avro

/-- `PROTOCOL_ERROR_POLICY_LOG`, defined with the replication protocol outside this file; the
usage text and the message of `set_error_policy` give its value. -/
def protocolErrorPolicyLog : String := "log"

/-- `PROTOCOL_ERROR_POLICY_EXIT`, known as `PROTOCOL_ERROR_POLICY_LOG` is. -/
def protocolErrorPolicyExit : String := "exit"

/-- `DEFAULT_ERROR_POLICY_NAME`. -/
def defaultErrorPolicyName : String := protocolErrorPolicyExit

/-- `DEFAULT_ERROR_POLICY`. -/
def defaultErrorPolicy : ErrorPolicy := .exit

/-- What `parse_options` writes: the connection string, slot name, `allow_unkeyed`,
`skip_snapshot` and copy of the error policy (`db_client_set_error_policy`) of the client; the
brokers, the URL its schema registry client was made for, the output format, topic prefix and
error policy of the producer; and the properties set on librdkafka's global and topic
configurations, in order. -/
structure Settings where
  conninfo : Option String
  slotName : String
  brokers : String
  registry : Option String
  outputFormat : OutputFormat
  allowUnkeyed : Bool
  topicPrefix : Option String
  errorPolicy : ErrorPolicy
  clientErrorPolicy : String
  skipSnapshot : Bool
  kafkaConfig : List (String × String)
  topicConfig : List (String × String)
  deriving DecidableEq, Repr

/-- The settings `init_client` and `init_producer` leave for `parse_options`. The client's other
fields are `db_client_new`'s, outside this file: the connection string is unset and
`skip_snapshot` is false. The `produce.offset.report` property `init_producer` sets is taken as
accepted. -/
def initSettings : Settings where
  conninfo := none
  slotName := defaultReplicationSlot
  brokers := defaultBrokerList
  registry := none
  outputFormat := defaultOutputFormat
  allowUnkeyed := false
  topicPrefix := none
  errorPolicy := defaultErrorPolicy
  clientErrorPolicy := defaultErrorPolicyName
  skipSnapshot := false
  kafkaConfig := []
  topicConfig := [("produce.offset.report", "true")]

/-- How configuration ends the process: `usage(status)`, after the message of a `config_error`
if there is one; the property list of `--config-help` and `exit(0)`; or an error message and
`exit(1)`. -/
inductive ConfigExit
  | usage (status : Int) (message : Option String)
  | configHelp
  | error (message : String)
  deriving DecidableEq, Repr

def ConfigExit.status : ConfigExit → Int
  | .usage status _ => status
  | .configHelp => 0
  | .error _ => 1

/-- What configuration meets outside this file: whether `schema_registry_new` makes a client for
a URL, and the error text `rd_kafka_conf_set` and `rd_kafka_topic_conf_set` write for a property
and value they refuse. -/
structure ConfigEnv where
  registryNew : String → Bool
  kafkaConfSet : String → String → Option String
  topicConfSet : String → String → Option String

/-- `set_output_format`. -/
def setOutputFormat (format : String) (s : Settings) : Except ConfigExit Settings :=
  if "avro" = format then .ok { s with outputFormat := .avro }
  else if "json" = format then .ok { s with outputFormat := .json }
  else .error (.error ("invalid output format (expected avro or json): " ++ format))

/-- `set_error_policy`: the producer's policy, and the client's copy through
`db_client_set_error_policy`. -/
def setErrorPolicy (policy : String) (s : Settings) : Except ConfigExit Settings :=
  if protocolErrorPolicyLog = policy then
    .ok { s with errorPolicy := .log, clientErrorPolicy := policy }
  else if protocolErrorPolicyExit = policy then
    .ok { s with errorPolicy := .exit, clientErrorPolicy := policy }
  else .error (.error ("invalid error policy (expected log or exit): " ++ policy))

/-- `error_policy_name`. -/
def errorPolicyName : ErrorPolicy → String
  | .log => protocolErrorPolicyLog
  | .exit => protocolErrorPolicyExit
  | .undefined => "undefined (probably a bug)"

/-- `strchr(option, '=')` and the cut there: the characters before the first `=` and after it. -/
def splitAtEquals : List Char → Option (List Char × List Char)
  | [] => none
  | c :: cs => if c = '=' then some ([], cs) else (splitAtEquals cs).map fun (p, v) => (c :: p, v)

/-- `parse_config_option`: the property before the first `=` and the value after it. -/
def parseConfigOption (progname option : String) : Except ConfigExit (String × String) :=
  match splitAtEquals option.data with
  | some (property, value) => .ok (⟨property⟩, ⟨value⟩)
  | none => .error (.error (progname ++
      ": Expected configuration in the form property=value, not \"" ++ option ++ "\""))

theorem splitAtEquals_append {p : List Char} (hp : '=' ∉ p) (v : List Char) :
    splitAtEquals (p ++ '=' :: v) = some (p, v) := by
  induction p with
  | nil => simp [splitAtEquals]
  | cons c p ih =>
      simp only [List.mem_cons, not_or] at hp
      simp [splitAtEquals, Ne.symm hp.1, ih hp.2]

theorem splitAtEquals_eq_some : ∀ {o p v : List Char}, splitAtEquals o = some (p, v) →
    o = p ++ '=' :: v ∧ '=' ∉ p
  | [], _, _, h => by simp [splitAtEquals] at h
  | c :: o, p, v, h => by
      unfold splitAtEquals at h
      split_ifs at h with hc
      · simp only [Option.some.injEq, Prod.mk.injEq] at h
        obtain ⟨rfl, rfl⟩ := h
        simp [hc]
      · obtain ⟨⟨p', v'⟩, hs, he⟩ := Option.map_eq_some'.1 h
        simp only [Prod.mk.injEq] at he
        obtain ⟨rfl, rfl⟩ := he
        obtain ⟨rfl, hp'⟩ := splitAtEquals_eq_some hs
        simp [hp', Ne.symm hc]

/-- `parse_config_option` inverts joining a property without `=` to a value, and what it accepts
is such a join. -/
theorem parseConfigOption_round_trip (progname : String) :
    (∀ property value : String, '=' ∉ property.data →
      parseConfigOption progname (property ++ "=" ++ value) = .ok (property, value)) ∧
    (∀ option property value : String, parseConfigOption progname option = .ok (property, value) →
      property ++ "=" ++ value = option ∧ '=' ∉ property.data) := by
  refine ⟨fun property value hp => ?_, fun option property value h => ?_⟩
  · have hdata : (property ++ "=" ++ value).data = property.data ++ '=' :: value.data := by simp
    simp [parseConfigOption, hdata, splitAtEquals_append hp]
  · unfold parseConfigOption at h
    split at h
    · rename_i p v hs
      simp only [Except.ok.injEq, Prod.mk.injEq] at h
      obtain ⟨rfl, rfl⟩ := h
      obtain ⟨ho, hp⟩ := splitAtEquals_eq_some hs
      exact ⟨String.ext (by simp [ho]), hp⟩
    · cases h

/-- `init_schema_registry`. -/
def initSchemaRegistry (env : ConfigEnv) (url : String) (s : Settings) :
    Except ConfigExit Settings :=
  if env.registryNew url then .ok { s with registry := some url }
  else .error (.error "Failed to initialise schema registry!")

/-- `set_kafka_config` and `set_topic_config`: a property set on a librdkafka configuration that
answers `confSet`, after the ones set before. -/
def setConfig (confSet : String → String → Option String) (progname property value : String)
    (set : List (String × String)) : Except ConfigExit (List (String × String)) :=
  match confSet property value with
  | none => .ok (set ++ [(property, value)])
  | some error => .error (.error (progname ++ ": " ++ error))

/-- `set_kafka_config`. -/
def setKafkaConfig (env : ConfigEnv) (progname property value : String) (s : Settings) :
    Except ConfigExit Settings :=
  (setConfig env.kafkaConfSet progname property value s.kafkaConfig).map
    fun set => { s with kafkaConfig := set }

/-- `set_topic_config`. -/
def setTopicConfig (env : ConfigEnv) (progname property value : String) (s : Settings) :
    Except ConfigExit Settings :=
  (setConfig env.topicConfSet progname property value s.topicConfig).map
    fun set => { s with topicConfig := set }

/-- The entries of `parse_options`' option table, as `getopt_long` reports them, and `unknown` for
its `'?'`: an option the table lacks, or one missing its argument. -/
inductive LongOption
  | postgres
  | slot
  | broker
  | schemaRegistry
  | outputFormat
  | allowUnkeyed
  | topicPrefix
  | onError
  | skipSnapshot
  | kafkaConfig
  | topicConfig
  | configHelp
  | help
  | unknown
  deriving DecidableEq, Repr

/-- The `switch` of the option loop of `parse_options` for one option and its argument. -/
def parseOption (env : ConfigEnv) (progname : String) (s : Settings) :
    LongOption × String → Except ConfigExit Settings
  | (.postgres, optarg) => .ok { s with conninfo := some optarg }
  | (.slot, optarg) => .ok { s with slotName := optarg }
  | (.broker, optarg) => .ok { s with brokers := optarg }
  | (.schemaRegistry, optarg) => initSchemaRegistry env optarg s
  | (.outputFormat, optarg) => setOutputFormat optarg s
  | (.allowUnkeyed, _) => .ok { s with allowUnkeyed := true }
  | (.topicPrefix, optarg) => .ok { s with topicPrefix := some optarg }
  | (.onError, optarg) => setErrorPolicy optarg s
  | (.skipSnapshot, _) => .ok { s with skipSnapshot := true }
  | (.kafkaConfig, optarg) => do
    let (property, value) ← parseConfigOption progname optarg
    setKafkaConfig env progname property value s
  | (.topicConfig, optarg) => do
    let (property, value) ← parseConfigOption progname optarg
    setTopicConfig env progname property value s
  | (.configHelp, _) => .error .configHelp
  | (.help, _) => .error (.usage 0 none)
  | (.unknown, _) => .error (.usage 1 none)

/-- The checks of `parse_options` after its option loop: a connection string and no argument
left over, then the default schema registry for Avro, which does not take one for JSON. -/
def checkSettings (env : ConfigEnv) (extraArgs : Bool) (s : Settings) :
    Except ConfigExit Settings := do
  if s.conninfo.isNone || extraArgs then throw (.usage 1 none)
  if s.outputFormat = .avro ∧ s.registry.isNone then
    initSchemaRegistry env defaultSchemaRegistry s
  else if s.outputFormat = .json ∧ s.registry.isSome then
    throw (.usage 1 (some "Specifying --schema-registry doesn't make sense for --output-format=json"))
  else pure s

/-- `parse_options`: the option loop, then its checks. -/
def parseOptions (env : ConfigEnv) (progname : String) (opts : List (LongOption × String))
    (extraArgs : Bool) : Except ConfigExit Settings := do
  let s ← opts.foldlM (parseOption env progname) initSettings
  checkSettings env extraArgs s

/-! ### The options read field by field -/

/-- The argument of the last option `n` of `opts`. -/
def lastArg (n : LongOption) : List (LongOption × String) → Option String
  | [] => none
  | o :: opts => (lastArg n opts).or (if o.1 = n then some o.2 else none)

def given (n : LongOption) (opts : List (LongOption × String)) : Bool :=
  opts.any fun o => decide (o.1 = n)

/-- The properties that the options `n` of `opts` set, in order. -/
def configPairs (n : LongOption) (opts : List (LongOption × String)) : List (String × String) :=
  opts.filterMap fun o =>
    if o.1 = n then (splitAtEquals o.2.data).map fun (p, v) => (⟨p⟩, ⟨v⟩) else none

/-- The format an accepted `--output-format` argument names. -/
def formatOf (format : String) : OutputFormat := if "avro" = format then .avro else .json

/-- The policy an accepted `--on-error` argument names. -/
def policyOf (policy : String) : ErrorPolicy :=
  if protocolErrorPolicyLog = policy then .log else .exit

/-- The settings after the options `opts`, read field by field: each is the argument of its last
option, or what it was. -/
def Settings.apply (s : Settings) (opts : List (LongOption × String)) : Settings where
  conninfo := (lastArg .postgres opts).or s.conninfo
  slotName := (lastArg .slot opts).getD s.slotName
  brokers := (lastArg .broker opts).getD s.brokers
  registry := (lastArg .schemaRegistry opts).or s.registry
  outputFormat := ((lastArg .outputFormat opts).map formatOf).getD s.outputFormat
  allowUnkeyed := given .allowUnkeyed opts || s.allowUnkeyed
  topicPrefix := (lastArg .topicPrefix opts).or s.topicPrefix
  errorPolicy := ((lastArg .onError opts).map policyOf).getD s.errorPolicy
  clientErrorPolicy := (lastArg .onError opts).getD s.clientErrorPolicy
  skipSnapshot := given .skipSnapshot opts || s.skipSnapshot
  kafkaConfig := s.kafkaConfig ++ configPairs .kafkaConfig opts
  topicConfig := s.topicConfig ++ configPairs .topicConfig opts

/-- The settings `checkSettings` returns when it passes: the default schema registry for Avro
when none was given. -/
def withDefaultRegistry (s : Settings) : Settings :=
  if s.outputFormat = .avro ∧ s.registry = none then { s with registry := some defaultSchemaRegistry }
  else s

/-- The settings the options ask for. -/
def requested (opts : List (LongOption × String)) : Settings :=
  withDefaultRegistry (initSettings.apply opts)

/-- Whether the body of the option loop returns for an option. -/
def OptionOk (env : ConfigEnv) : LongOption × String → Prop
  | (.schemaRegistry, url) => env.registryNew url = true
  | (.outputFormat, format) => format = "avro" ∨ format = "json"
  | (.onError, policy) => policy = protocolErrorPolicyLog ∨ policy = protocolErrorPolicyExit
  | (.kafkaConfig, option) =>
    match splitAtEquals option.data with
    | some (p, v) => env.kafkaConfSet ⟨p⟩ ⟨v⟩ = none
    | none => False
  | (.topicConfig, option) =>
    match splitAtEquals option.data with
    | some (p, v) => env.topicConfSet ⟨p⟩ ⟨v⟩ = none
    | none => False
  | (.configHelp, _) | (.help, _) | (.unknown, _) => False
  | _ => True

/-- What the producer needs of its settings: a connection string, an output format and an error
policy that its `switch`es know, a schema registry exactly for Avro, and a client error policy
that names the producer's. -/
structure Settings.Valid (s : Settings) : Prop where
  conninfo_isSome : s.conninfo.isSome
  outputFormat_ne : s.outputFormat ≠ .undefined
  registry_isSome_iff : s.registry.isSome ↔ s.outputFormat = .avro
  errorPolicy_ne : s.errorPolicy ≠ .undefined
  clientErrorPolicy_eq : s.clientErrorPolicy = errorPolicyName s.errorPolicy

/-! ### The option loop, read field by field -/

theorem lastArg_append (n : LongOption) (l₁ l₂ : List (LongOption × String)) :
    lastArg n (l₁ ++ l₂) = (lastArg n l₂).or (lastArg n l₁) := by
  induction l₁ with
  | nil => simp [lastArg]
  | cons o l₁ ih => simp [lastArg, ih, Option.or_assoc]

theorem lastArg_mem {n : LongOption} {v : String} :
    ∀ {opts : List (LongOption × String)}, lastArg n opts = some v → (n, v) ∈ opts
  | [], h => by simp [lastArg] at h
  | o :: opts, h => by
      simp only [lastArg, Option.or_eq_some] at h
      rcases h with h | ⟨-, h⟩
      · exact List.mem_cons_of_mem _ (lastArg_mem h)
      · split_ifs at h with ho
        cases h
        simp [← ho]

private theorem getD_or {α : Type} (a b : Option α) (d : α) :
    (a.or b).getD d = a.getD (b.getD d) := by
  cases a <;> rfl

@[simp] theorem Settings.apply_nil (s : Settings) : s.apply [] = s := by
  simp [Settings.apply, lastArg, given, configPairs]

theorem Settings.apply_append (s : Settings) (l₁ l₂ : List (LongOption × String)) :
    (s.apply l₁).apply l₂ = s.apply (l₁ ++ l₂) := by
  simp only [Settings.apply, lastArg_append, given, configPairs, List.any_append,
    List.filterMap_append, Option.or_assoc, getD_or, Option.map_or', List.append_assoc,
    Bool.or_assoc, Bool.or_left_comm]

@[simp] theorem initSettings_apply_conninfo (opts : List (LongOption × String)) :
    (initSettings.apply opts).conninfo = lastArg .postgres opts := Option.or_none

@[simp] theorem initSettings_apply_registry (opts : List (LongOption × String)) :
    (initSettings.apply opts).registry = lastArg .schemaRegistry opts := Option.or_none

theorem parseOption_ok {env : ConfigEnv} {progname : String} {s s' : Settings}
    {o : LongOption × String} :
    parseOption env progname s o = .ok s' ↔ OptionOk env o ∧ s.apply [o] = s' := by
  obtain ⟨n, arg⟩ := o
  cases n <;> simp [parseOption, OptionOk, Settings.apply, lastArg, given, configPairs,
    initSchemaRegistry, setOutputFormat, setErrorPolicy, parseConfigOption, setKafkaConfig,
    setTopicConfig, setConfig]
  case schemaRegistry => split_ifs <;> simp [*]
  case outputFormat =>
    split_ifs with h1 h2
    · subst h1; simp [formatOf]
    · subst h2; simp [formatOf, h1]
    · simp [Ne.symm h1, Ne.symm h2]
  case onError =>
    split_ifs with h1 h2
    · subst h1; simp [policyOf]
    · subst h2; simp [policyOf, h1]
    · simp [Ne.symm h1, Ne.symm h2]
  case kafkaConfig =>
    cases hs : splitAtEquals arg.data with
    | none => simp [bind, Except.bind]
    | some pv =>
        cases h : env.kafkaConfSet ⟨pv.1⟩ ⟨pv.2⟩ <;> simp [hs, h, bind, Except.bind, Except.map]
  case topicConfig =>
    cases hs : splitAtEquals arg.data with
    | none => simp [bind, Except.bind]
    | some pv =>
        cases h : env.topicConfSet ⟨pv.1⟩ ⟨pv.2⟩ <;> simp [hs, h, bind, Except.bind, Except.map]

theorem foldlM_parseOption_ok {env : ConfigEnv} {progname : String} :
    ∀ {opts : List (LongOption × String)} {s s' : Settings},
      opts.foldlM (parseOption env progname) s = .ok s' ↔
        (∀ o ∈ opts, OptionOk env o) ∧ s.apply opts = s'
  | [], s, s' => by simp [pure, Except.pure]
  | o :: opts, s, s' => by
      rw [List.foldlM_cons]
      cases h : parseOption env progname s o with
      | error e =>
          have hno : ¬ OptionOk env o := fun hok => by
            rw [parseOption_ok.2 ⟨hok, rfl⟩] at h
            cases h
          simp [bind, Except.bind, hno]
      | ok s₁ =>
          obtain ⟨hok, rfl⟩ := parseOption_ok.1 h
          simp only [bind, Except.bind, @foldlM_parseOption_ok env progname opts _ _,
            Settings.apply_append,
            List.singleton_append, List.forall_mem_cons, hok, true_and]

theorem apply_outputFormat_ne (s : Settings) (hs : s.outputFormat ≠ .undefined)
    (opts : List (LongOption × String)) : (s.apply opts).outputFormat ≠ .undefined := by
  simp only [Settings.apply]
  cases lastArg .outputFormat opts with
  | none => exact hs
  | some f => simp only [Option.map_some', Option.getD_some, formatOf]; split_ifs <;> simp

theorem apply_errorPolicy_ne (s : Settings) (hs : s.errorPolicy ≠ .undefined)
    (opts : List (LongOption × String)) : (s.apply opts).errorPolicy ≠ .undefined := by
  simp only [Settings.apply]
  cases lastArg .onError opts with
  | none => exact hs
  | some p => simp only [Option.map_some', Option.getD_some, policyOf]; split_ifs <;> simp

theorem checkSettings_ok_iff {env : ConfigEnv} {extraArgs : Bool} {r s : Settings}
    (hr : r.outputFormat ≠ .undefined) :
    checkSettings env extraArgs r = .ok s ↔
      r.conninfo.isSome ∧ extraArgs = false ∧
        (if r.outputFormat = .json then r.registry = none
          else r.registry = none → env.registryNew defaultSchemaRegistry = true) ∧
        withDefaultRegistry r = s := by
  unfold checkSettings withDefaultRegistry
  cases hf : r.outputFormat <;> cases hreg : r.registry <;> cases hc : r.conninfo <;>
    cases extraArgs <;>
    simp [hf, hreg, hc, bind, Except.bind, initSchemaRegistry, pure, Except.pure, throw, throwThe,
      MonadExceptOf.throw] at hr ⊢
  split_ifs <;> simp [*]

theorem parseOptions_ok_iff_apply {env : ConfigEnv} {progname : String}
    {opts : List (LongOption × String)} {extraArgs : Bool} {s : Settings} :
    parseOptions env progname opts extraArgs = .ok s ↔
      (∀ o ∈ opts, OptionOk env o) ∧
        checkSettings env extraArgs (initSettings.apply opts) = .ok s := by
  simp only [parseOptions, bind, Except.bind]
  cases h : opts.foldlM (parseOption env progname) initSettings with
  | error e =>
      refine iff_of_false (by simp) fun hc => ?_
      rw [foldlM_parseOption_ok.2 ⟨hc.1, rfl⟩] at h
      cases h
  | ok r =>
      obtain ⟨hall, rfl⟩ := foldlM_parseOption_ok.1 h
      exact (and_iff_right hall).symm

/-- `parse_options` returns exactly when it accepts every option, a connection string is given,
no argument is left over, and a schema registry is given only for Avro, or the default one can
be made; and then it returns the settings the options ask for, each the argument of its last
option or the default. -/
theorem parseOptions_ok_iff (env : ConfigEnv) (progname : String)
    (opts : List (LongOption × String)) (extraArgs : Bool) (s : Settings) :
    parseOptions env progname opts extraArgs = .ok s ↔
      (∀ o ∈ opts, OptionOk env o) ∧ (lastArg .postgres opts).isSome ∧ extraArgs = false ∧
        (if (initSettings.apply opts).outputFormat = .json then lastArg .schemaRegistry opts = none
          else lastArg .schemaRegistry opts = none → env.registryNew defaultSchemaRegistry = true) ∧
        requested opts = s := by
  rw [parseOptions_ok_iff_apply,
    checkSettings_ok_iff (apply_outputFormat_ne initSettings (by decide) opts)]
  simp only [initSettings_apply_conninfo, initSettings_apply_registry, requested]

/-- A schema registry given before `--output-format=json` is refused as one given after it. -/
example : parseOptions ⟨fun _ => true, fun _ _ => none, fun _ _ => none⟩ "bottledwater"
    [(.postgres, "dbname=shop"), (.schemaRegistry, "http://registry:8081"), (.outputFormat, "json")]
    false =
  .error (.usage 1 (some "Specifying --schema-registry doesn't make sense for --output-format=json")) :=
  rfl

/-! ### The order of the options -/

theorem lastArg_filter (n : LongOption) (opts : List (LongOption × String)) :
    lastArg n (opts.filter fun o => o.1 = n) = lastArg n opts := by
  induction opts with
  | nil => rfl
  | cons o opts ih => by_cases ho : o.1 = n <;> simp [List.filter_cons, ho, lastArg, ih]

theorem given_filter (n : LongOption) (opts : List (LongOption × String)) :
    given n (opts.filter fun o => o.1 = n) = given n opts := by
  simp [given, List.any_eq_true, List.mem_filter]

theorem configPairs_filter (n : LongOption) (opts : List (LongOption × String)) :
    configPairs n (opts.filter fun o => o.1 = n) = configPairs n opts := by
  induction opts with
  | nil => rfl
  | cons o opts ih =>
      by_cases ho : o.1 = n <;> simp_all [List.filter_cons, configPairs, List.filterMap_cons]

theorem Settings.apply_eq_of_filter {opts opts' : List (LongOption × String)}
    (h : ∀ n, (opts.filter fun o => o.1 = n) = opts'.filter fun o => o.1 = n) (s : Settings) :
    s.apply opts = s.apply opts' := by
  have hl : ∀ n, lastArg n opts = lastArg n opts' := fun n => by
    rw [← lastArg_filter, h, lastArg_filter]
  have hg : ∀ n, given n opts = given n opts' := fun n => by
    rw [← given_filter, h, given_filter]
  have hc : ∀ n, configPairs n opts = configPairs n opts' := fun n => by
    rw [← configPairs_filter, h, configPairs_filter]
  simp only [Settings.apply, hl, hg, hc]

/-- Options of different names may be given in any order: two option lists that hold the same
options of each name in the same order are accepted together, and with the same settings. -/
theorem parseOptions_reorder (env : ConfigEnv) (progname : String) (extraArgs : Bool)
    {opts opts' : List (LongOption × String)}
    (h : ∀ n, (opts.filter fun o => o.1 = n) = opts'.filter fun o => o.1 = n) (s : Settings) :
    parseOptions env progname opts extraArgs = .ok s ↔
      parseOptions env progname opts' extraArgs = .ok s := by
  have hmem : ∀ o, o ∈ opts ↔ o ∈ opts' := fun o => by
    simpa using congrArg (o ∈ ·) (h o.1)
  rw [parseOptions_ok_iff_apply, parseOptions_ok_iff_apply, Settings.apply_eq_of_filter h]
  simp only [hmem]

/-- The connection string after the output format instead of before it. -/
theorem parseOptions_reorder_json :
    (∀ n, ([(LongOption.postgres, "dbname=shop"), (.outputFormat, "json")].filter
        fun o => o.1 = n) =
      [(LongOption.outputFormat, "json"), (.postgres, "dbname=shop")].filter fun o => o.1 = n) ∧
    (parseOptions ⟨fun _ => true, fun _ _ => none, fun _ _ => none⟩ "bottledwater"
        [(.postgres, "dbname=shop"), (.outputFormat, "json")] false =
        .ok (requested [(.postgres, "dbname=shop"), (.outputFormat, "json")]) ↔
      parseOptions ⟨fun _ => true, fun _ _ => none, fun _ _ => none⟩ "bottledwater"
        [(.outputFormat, "json"), (.postgres, "dbname=shop")] false =
        .ok (requested [(.postgres, "dbname=shop"), (.outputFormat, "json")])) := by
  have h : ∀ n, ([(LongOption.postgres, "dbname=shop"), (.outputFormat, "json")].filter
      fun o => o.1 = n) =
      [(LongOption.outputFormat, "json"), (.postgres, "dbname=shop")].filter fun o => o.1 = n := by
    intro n
    cases n <;> rfl
  exact ⟨h, parseOptions_reorder _ _ _ h _⟩

/-! ### What the producer gets -/

theorem errorPolicyName_policyOf {p : String}
    (h : p = protocolErrorPolicyLog ∨ p = protocolErrorPolicyExit) :
    errorPolicyName (policyOf p) = p := by
  rcases h with rfl | rfl <;> decide

theorem apply_clientErrorPolicy {env : ConfigEnv} {opts : List (LongOption × String)}
    (hall : ∀ o ∈ opts, OptionOk env o) :
    (initSettings.apply opts).clientErrorPolicy =
      errorPolicyName (initSettings.apply opts).errorPolicy := by
  simp only [Settings.apply]
  cases hp : lastArg .onError opts with
  | none => rfl
  | some p => exact (errorPolicyName_policyOf (hall _ (lastArg_mem hp))).symm

theorem withDefaultRegistry_valid {r : Settings} (hcon : r.conninfo.isSome)
    (hfmt : r.outputFormat ≠ .undefined) (hpol : r.errorPolicy ≠ .undefined)
    (hclient : r.clientErrorPolicy = errorPolicyName r.errorPolicy)
    (hjson : r.outputFormat = .json → r.registry = none) : (withDefaultRegistry r).Valid := by
  unfold withDefaultRegistry
  split_ifs with hr
  · exact ⟨hcon, by simp [hr.1], by simp [hr.1], hpol, hclient⟩
  · refine ⟨hcon, hfmt, ?_, hpol, hclient⟩
    cases hf : r.outputFormat <;> simp_all [Option.isSome_iff_ne_none]

/-- Whatever the options, the settings `parse_options` returns are valid. -/
theorem parseOptions_valid {env : ConfigEnv} {progname : String}
    {opts : List (LongOption × String)} {extraArgs : Bool} {s : Settings}
    (h : parseOptions env progname opts extraArgs = .ok s) : s.Valid := by
  obtain ⟨hall, hc⟩ := parseOptions_ok_iff_apply.1 h
  have hfmt := apply_outputFormat_ne initSettings (by decide) opts
  obtain ⟨hcon, -, hreg, rfl⟩ := (checkSettings_ok_iff hfmt).1 hc
  exact withDefaultRegistry_valid hcon hfmt (apply_errorPolicy_ne initSettings (by decide) opts)
    (apply_clientErrorPolicy hall) fun hj => by simpa [hj] using hreg

/-- The defaults the usage text names are values the options accept, and they give the defaults
`init_producer` and `init_client` set. -/
theorem default_names_accepted (s : Settings) :
    setOutputFormat defaultOutputFormatName s = .ok { s with outputFormat := defaultOutputFormat } ∧
      setErrorPolicy defaultErrorPolicyName s =
        .ok { s with
          errorPolicy := defaultErrorPolicy, clientErrorPolicy := defaultErrorPolicyName } :=
  ⟨rfl, rfl⟩

end BottledWater
