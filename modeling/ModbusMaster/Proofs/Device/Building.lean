import ModbusMaster.Device
import ModbusMaster.Proofs.Cache.Reading
import ModbusMaster.Proofs.Results

/-!
Building a device from a configuration. The configuration is checked as a whole, then each piece
again when it is needed, and a transport over TCP checks its settings once more. What has passed
the first of these checks passes the others, so nothing is opened in vain: a device that cannot be
built has either an invalid configuration, and then nothing at all has happened, or a transport
that cannot be had.
-/

namespace ModbusMaster

open Results

theorem TimeSetting.check_eq_ok_iff {setting : TimeSetting} {seconds : Double}
    {duration : Duration} : setting.check seconds = .ok duration ↔
      Duration.ofDouble? seconds = some duration ∧ duration ≠ 0 := by
  unfold check
  cases Duration.ofDouble? seconds with
  | none => simp
  | some found =>
    by_cases hzero : found = 0
    · have hnot : ¬ (found = duration ∧ duration ≠ 0) := fun h => h.2 (h.1 ▸ hzero)
      simpa [hzero] using hnot
    · have hiff : found = duration ↔ found = duration ∧ duration ≠ 0 :=
        ⟨fun h => ⟨h, h ▸ hzero⟩, And.left⟩
      simpa [hzero] using hiff

/-- Settings whose timeouts have been checked are refused for the host only. -/
theorem Tcp.Transport.of_checked {resolve : String → Option Host} {settings : Tcp.Settings}
    (hconnect : settings.connectTimeout ≠ 0) (htimeout : settings.timeout ≠ 0) :
    Transport.of resolve settings =
      match resolve settings.host with
      | none => .error (.unknownHost settings.host)
      | some host => .ok {
          settings := { settings with
            port := if settings.port = 0 then defaultPort else settings.port }
          host } := by
  unfold Transport.of
  cases hresolve : resolve settings.host with
  | none => by_cases hport : settings.port = 0 <;> simp [hport, hconnect, htimeout, hresolve]
  | some host => by_cases hport : settings.port = 0 <;> simp [hport, hconnect, htimeout, hresolve]

namespace EngineConfig

variable {config : EngineConfig}

theorem unit_eq_ok_iff {unit : UnitId} : config.unit = .ok unit ↔
    unit = ⟨config.node⟩ ∧ unit ≠ .broadcast ∧
      (config.protocol = .rtu → unit.value.toNat < 248) := by
  unfold EngineConfig.unit
  by_cases hreserved : (⟨config.node⟩ : UnitId) = .broadcast ∨
      (config.protocol = .rtu ∧ UnitId.isRtuReserved ⟨config.node⟩)
  · rw [if_pos hreserved]
    constructor
    · nofun
    · intro h
      obtain ⟨rfl, hbroadcast, hlow⟩ := h
      cases hreserved with
      | inl heq => exact absurd heq hbroadcast
      | inr hrtu =>
        have hhigh : 248 ≤ config.node.toNat := by simpa [UnitId.isRtuReserved] using hrtu.2
        exact absurd (hlow hrtu.1) (Nat.not_lt.mpr hhigh)
  · rw [if_neg hreserved]
    constructor
    · intro h
      cases h
      refine ⟨rfl, fun heq => hreserved (.inl heq), fun hrtu => Nat.lt_of_not_le fun hhigh => ?_⟩
      exact hreserved (.inr ⟨hrtu, by simpa [UnitId.isRtuReserved] using hhigh⟩)
    · intro h
      rw [h.1]

theorem serialSettings_eq_ok_iff {settings : Serial.Settings} :
    config.serialSettings = .ok settings ↔ trimmed config.serialDevice ≠ "" ∧
      ∃ timeout, Duration.ofDouble? config.serialTimeout = some timeout ∧ timeout ≠ 0 ∧
        { baudRate := config.baudRate, timeout } = settings := by
  by_cases hdevice : trimmed config.serialDevice = ""
  · have hmissing : config.serialSettings = .error (.missing .serialDevice) := by
      rw [serialSettings, if_pos hdevice]
      rfl
    simp [hmissing, hdevice]
  · have hchecked : config.serialSettings =
        (TimeSetting.serialTimeout.check config.serialTimeout).map
          fun timeout => { baudRate := config.baudRate, timeout } := by
      rw [serialSettings, if_neg hdevice]
      rfl
    rw [hchecked, map_eq_ok_iff]
    simp [hdevice, TimeSetting.check_eq_ok_iff, and_assoc]

theorem tcpSettings_eq_ok_iff {settings : Tcp.Settings} :
    config.tcpSettings = .ok settings ↔ trimmed config.tcpHost ≠ "" ∧
      ∃ connectTimeout timeout,
        Duration.ofDouble? config.tcpConnectTimeout = some connectTimeout ∧ connectTimeout ≠ 0 ∧
        Duration.ofDouble? config.tcpTimeout = some timeout ∧ timeout ≠ 0 ∧
        {
          host := trimmed config.tcpHost
          port := config.tcpPort
          connectTimeout
          timeout
          noDelay := config.tcpNoDelay
          quickAck := config.tcpQuickAck
          keepAlive := config.tcpKeepAlive } = settings := by
  by_cases hhost : trimmed config.tcpHost = ""
  · have hmissing : config.tcpSettings = .error (.missing .tcpHost) := by
      rw [tcpSettings, if_pos hhost]
      rfl
    simp [hmissing, hhost]
  · have hchecked : config.tcpSettings = (do
        let connectTimeout ← TimeSetting.tcpConnectTimeout.check config.tcpConnectTimeout
        let timeout ← TimeSetting.tcpTimeout.check config.tcpTimeout
        return {
          host := trimmed config.tcpHost
          port := config.tcpPort
          connectTimeout
          timeout
          noDelay := config.tcpNoDelay
          quickAck := config.tcpQuickAck
          keepAlive := config.tcpKeepAlive }) := by
      rw [tcpSettings, if_neg hhost]
    rw [hchecked]
    simp [hhost, bind_eq_ok_iff, TimeSetting.check_eq_ok_iff, and_assoc, pure, Except.pure]

theorem maxDelta_eq_ok_iff {limit : Option Duration} : config.maxDelta = .ok limit ↔
    config.cacheMaxDelta ≠ some 0 ∧
      limit = config.cacheMaxDelta.map fun millis => Duration.ofMillis millis.toNat := by
  unfold EngineConfig.maxDelta
  cases config.cacheMaxDelta with
  | none => simp [eq_comm]
  | some millis =>
    by_cases hzero : millis = 0
    · simp [hzero]
    · simp [hzero, eq_comm]

theorem cacheConfig_eq_ok_iff {cache : Option CacheConfig} : config.cacheConfig = .ok cache ↔
    config.cacheBlocks = [] ∧ cache = none ∨
      ∃ blocks, config.cacheBlocks ≠ [] ∧
        List.Forall₂ (fun text block => CacheBlock.ofDescriptor text = .ok block)
          config.cacheBlocks blocks ∧
        config.cachePollInterval ≠ 0 ∧ config.cacheMaxDelta ≠ some 0 ∧
        cache = some {
          blocks
          pollInterval := Duration.ofMillis config.cachePollInterval.toNat
          maxAllowedDelta :=
            config.cacheMaxDelta.map fun millis => Duration.ofMillis millis.toNat } := by
  by_cases hblocks : config.cacheBlocks = []
  · have hnone : config.cacheConfig = .ok none := by
      rw [cacheConfig, if_pos hblocks]
      rfl
    simp [hnone, hblocks, eq_comm]
  · have hchecked : config.cacheConfig = (do
        let blocks ← config.cacheBlocks.mapM CacheBlock.ofDescriptor
        if config.cachePollInterval = 0 then throw (.invalidDuration .cachePollInterval)
        let maxAllowedDelta ← config.maxDelta
        return some {
          blocks
          pollInterval := Duration.ofMillis config.cachePollInterval.toNat
          maxAllowedDelta }) := by
      rw [cacheConfig, if_neg hblocks]
    rw [hchecked, bind_eq_ok_iff]
    simp only [hblocks, false_and, false_or, ne_eq, not_false_eq_true, true_and, mapM_eq_ok_iff]
    apply exists_congr
    intro blocks
    apply and_congr_right
    intro _
    by_cases hinterval : config.cachePollInterval = 0
    · rw [if_pos hinterval]
      simp [hinterval, throw, throwThe, MonadExceptOf.throw, bind, Except.bind]
    · rw [if_neg hinterval]
      show (config.maxDelta >>= fun limit => _) = .ok cache ↔ _
      rw [bind_eq_ok_iff]
      simp only [maxDelta_eq_ok_iff]
      simp [hinterval, pure, Except.pure, eq_comm]

theorem validate_eq_ok_iff : config.validate = .ok () ↔ (∃ unit, config.unit = .ok unit) ∧
    (∃ cache, config.cacheConfig = .ok cache) ∧
    ∃ settings, config.protocolSettings = .ok settings := by
  unfold validate
  simp [bind_eq_ok_iff, pure, Except.pure]

theorem ofMillis_ne_zero {millis : UInt64} (h : millis ≠ 0) :
    Duration.ofMillis millis.toNat ≠ 0 := by
  have hpos : millis.toNat ≠ 0 := fun hzero => h (UInt64.toNat_inj.mp hzero)
  exact Nat.mul_ne_zero hpos (by decide)

theorem triple_ne_zero {interval : Duration} (h : interval ≠ 0) :
    Duration.triple interval ≠ 0 := by
  have hthree : 0 < 3 * interval := Nat.mul_pos (by decide) (Nat.pos_of_ne_zero h)
  exact Nat.ne_of_gt (Nat.lt_min.mpr ⟨hthree, by decide⟩)

theorem getD_triple_ne_zero {limit : Option Duration} {interval : Duration} (h : interval ≠ 0)
    (hlimit : limit ≠ some 0) : limit.getD (.triple interval) ≠ 0 := by
  cases limit with
  | none => exact triple_ne_zero h
  | some limit => exact fun hzero => hlimit (congrArg some hzero)

/-! ### What a device is built with -/

variable {resolve : String → Option Host} {decode : DecodeLevel} {history : List Action.Step}

/-- What is done to have the transport of a configuration, and the transport. A serial port is
opened; a connection is not. -/
inductive Opens (resolve : String → Option Host) (config : EngineConfig) (decode : DecodeLevel) :
    List Action.Step → Transport → Prop where
  | serial {line : Handle} {timeout : Duration} (selected : config.protocol = .rtu)
      (timeout_eq : Duration.ofDouble? config.serialTimeout = some timeout)
      (timeout_ne_zero : timeout ≠ 0) :
      Opens resolve config decode
        [⟨.openPort (trimmed config.serialDevice) { baudRate := config.baudRate, timeout },
            .ok line⟩,
          ⟨.report (.portOpened (trimmed config.serialDevice) config.baudRate.toNat), ()⟩]
        (.rtu { line, bus := globalBus, options := config.serialOptions decode })
  | net {host : Host} {connectTimeout timeout : Duration} (selected : config.protocol = .tcp)
      (resolved : resolve (trimmed config.tcpHost) = some host)
      (connectTimeout_eq : Duration.ofDouble? config.tcpConnectTimeout = some connectTimeout)
      (connectTimeout_ne_zero : connectTimeout ≠ 0)
      (timeout_eq : Duration.ofDouble? config.tcpTimeout = some timeout)
      (timeout_ne_zero : timeout ≠ 0) :
      Opens resolve config decode []
        (.tcp {
          settings := {
            host := trimmed config.tcpHost
            port := if config.tcpPort = 0 then 502 else config.tcpPort
            connectTimeout
            timeout
            noDelay := config.tcpNoDelay
            quickAck := config.tcpQuickAck
            keepAlive := config.tcpKeepAlive
            decode }
          host })

/-- What is done when the transport of a valid configuration cannot be had. -/
inductive Unopened (resolve : String → Option Host) (config : EngineConfig) :
    List Action.Step → ConfigError → Prop where
  | serialOpen {settings : Serial.Settings} {reason : String} (selected : config.protocol = .rtu) :
      Unopened resolve config
        [⟨.openPort (trimmed config.serialDevice) settings, .error reason⟩]
        (.serialOpen (trimmed config.serialDevice) reason)
  | unknownHost (selected : config.protocol = .tcp)
      (unresolved : resolve (trimmed config.tcpHost) = none) :
      Unopened resolve config [] (.unknownHost (trimmed config.tcpHost))

theorem openTransport_runs {result : Except ConfigError Transport}
    (hvalid : ∃ settings, config.protocolSettings = .ok settings)
    (hruns : (config.openTransport resolve decode).Runs history result) :
    (∃ error, result = .error error ∧ config.Unopened resolve history error) ∨
      ∃ transport, result = .ok transport ∧ Opens resolve config decode history transport := by
  obtain ⟨settings, hsettings⟩ := hvalid
  rw [openTransport, hsettings] at hruns
  unfold protocolSettings at hsettings
  cases hselected : config.protocol with
  | rtu =>
    rw [hselected] at hsettings
    obtain ⟨serial, hserial, rfl⟩ := map_eq_ok_iff.mp hsettings
    obtain ⟨-, timeout, htimeout, hzero, rfl⟩ := serialSettings_eq_ok_iff.mp hserial
    obtain ⟨answer, rest, rfl, hrest⟩ := Action.runs_perform_bind_iff.mp hruns
    cases answer with
    | error reason =>
      obtain ⟨rfl, rfl⟩ := Action.runs_pure_iff.mp hrest
      exact .inl ⟨_, rfl, .serialOpen hselected⟩
    | ok line =>
      obtain ⟨⟨⟩, rest, rfl, hdone⟩ := Action.runs_perform_bind_iff.mp hrest
      obtain ⟨rfl, rfl⟩ := Action.runs_pure_iff.mp hdone
      exact .inr ⟨_, rfl, .serial hselected htimeout hzero⟩
  | tcp =>
    rw [hselected] at hsettings
    obtain ⟨net, hnet, rfl⟩ := map_eq_ok_iff.mp hsettings
    obtain ⟨-, connectTimeout, timeout, hconnect, hconnectZero, htimeout, htimeoutZero, rfl⟩ :=
      tcpSettings_eq_ok_iff.mp hnet
    obtain ⟨rfl, rfl⟩ := Action.runs_pure_iff.mp hruns
    rw [Tcp.Transport.of_checked hconnectZero htimeoutZero]
    cases hresolve : resolve (trimmed config.tcpHost) with
    | none => exact .inl ⟨_, rfl, .unknownHost hselected hresolve⟩
    | some host =>
      exact .inr ⟨_, rfl, .net hselected hresolve hconnect hconnectZero htimeout htimeoutZero⟩

/-- The cache that a configuration describes, and what is done to have it. -/
inductive Cached (config : EngineConfig) (engine : Engine) :
    List Action.Step → Option CacheManager → Prop where
  | none (unblocked : config.cacheBlocks = []) : Cached config engine [] none
  | polled {cache : Handle} {blocks : List CacheBlock} {interval maxDelta : Duration}
      (blocked : config.cacheBlocks ≠ [])
      (described : List.Forall₂ (fun text block => CacheBlock.ofDescriptor text = .ok block)
        config.cacheBlocks blocks)
      (interval_eq : interval = .ofMillis config.cachePollInterval.toNat)
      (interval_ne_zero : interval ≠ 0)
      (maxDelta_eq : maxDelta = (config.cacheMaxDelta.map fun millis =>
        Duration.ofMillis millis.toNat).getD (.triple interval))
      (maxDelta_ne_zero : maxDelta ≠ 0) :
      Cached config engine
        [⟨.newCache blocks, cache⟩, ⟨.startPolling ⟨engine, cache, blocks, interval⟩, ()⟩]
        (some ⟨engine, cache, blocks, maxDelta⟩)

/-- A device that was built from a configuration, and what was done to build it. -/
structure Built (resolve : String → Option Host) (config : EngineConfig) (decode : DecodeLevel)
    (history : List Action.Step) (device : Device) : Prop where
  unit_eq : device.engine.unit = ⟨config.node⟩
  not_broadcast : device.engine.unit ≠ .broadcast
  unreserved : config.protocol = .rtu → device.engine.unit.value.toNat < 248
  protocol_eq : device.engine.protocol = config.protocol
  retry_eq : device.retry = ⟨config.retryCount, .ofMillis config.retrySleep.toNat⟩
  calls : ∃ opening transport caching, Opens resolve config decode opening transport ∧
    config.Cached device.engine caching device.cache ∧
    history = opening ++
      ⟨.report (.deviceBuilt ⟨config.node⟩ config.protocol config.cacheBlocks.length), ()⟩ ::
      ⟨.newEngine transport, device.engine.transport⟩ :: caching

theorem Opens.protocol_eq {transport : Transport}
    (h : Opens resolve config decode history transport) :
    transport.protocol = config.protocol := by
  cases h with
  | serial selected => exact selected.symm
  | net selected => exact selected.symm

theorem create_runs {cache : Option CacheConfig} {transport : Transport} {unit : UnitId}
    {retry : RetryPolicy} {device : Device} (hcache : config.cacheConfig = .ok cache)
    (hruns : (Device.create transport unit cache retry).Runs history device) :
    device.engine.unit = unit ∧ device.engine.protocol = transport.protocol ∧
      device.retry = retry ∧ ∃ caching, config.Cached device.engine caching device.cache ∧
        history = ⟨.newEngine transport, device.engine.transport⟩ :: caching := by
  obtain ⟨handle, rest, rfl, hrest⟩ := Action.runs_perform_bind_iff.mp hruns
  rcases cacheConfig_eq_ok_iff.mp hcache with ⟨hblocks, rfl⟩ | ⟨blocks, hblocks, hdescribed,
    hinterval, hlimit, rfl⟩
  · obtain ⟨rfl, rfl⟩ := Action.runs_pure_iff.mp hrest
    exact ⟨rfl, rfl, rfl, [], .none hblocks, rfl⟩
  · obtain ⟨first, second, ⟨manager, task⟩, rfl, hcreate, hstart⟩ := Action.runs_bind_iff.mp hrest
    obtain ⟨cache, rest, rfl, hdone⟩ := Action.runs_perform_bind_iff.mp hcreate
    obtain ⟨rfl, hpair⟩ := Action.runs_pure_iff.mp hdone
    cases hpair
    obtain ⟨⟨⟩, rest, rfl, hreturn⟩ := Action.runs_perform_bind_iff.mp hstart
    obtain ⟨rfl, rfl⟩ := Action.runs_pure_iff.mp hreturn
    have hzero := ofMillis_ne_zero hinterval
    have hset :
        (config.cacheMaxDelta.map fun millis => Duration.ofMillis millis.toNat) ≠ some 0 := by
      intro heq
      obtain ⟨millis, hmillis, hmax⟩ := Option.map_eq_some_iff.mp heq
      exact ofMillis_ne_zero (fun hnone => hlimit (by rw [hmillis, hnone])) hmax
    exact ⟨rfl, rfl, rfl, _,
      .polled hblocks hdescribed rfl hzero rfl (getD_triple_ne_zero hzero hset), rfl⟩

/-- Two configurations that differ in nothing but what belongs to the protocol that is not
selected. -/
def SelectsAs (config config' : EngineConfig) : Prop :=
  match config.protocol with
  | .tcp => config' = { config with
      serialDevice := config'.serialDevice
      baudRate := config'.baudRate
      serialTimeout := config'.serialTimeout
      logFile := config'.logFile
      crcCheck := config'.crcCheck }
  | .rtu => config' = { config with
      tcpHost := config'.tcpHost
      tcpPort := config'.tcpPort
      tcpConnectTimeout := config'.tcpConnectTimeout
      tcpTimeout := config'.tcpTimeout
      tcpNoDelay := config'.tcpNoDelay
      tcpQuickAck := config'.tcpQuickAck
      tcpKeepAlive := config'.tcpKeepAlive }

namespace SelectsAs

variable {config' : EngineConfig}

theorem shared (h : config.SelectsAs config') : config'.unit = config.unit ∧
    config'.protocol = config.protocol ∧ config'.cacheBlocks = config.cacheBlocks ∧
    config'.cacheConfig = config.cacheConfig ∧ config'.retryPolicy = config.retryPolicy := by
  unfold SelectsAs at h
  split at h <;> rw [h] <;> exact ⟨rfl, rfl, rfl, rfl, rfl⟩

theorem protocolSettings_eq (h : config.SelectsAs config') :
    config'.protocolSettings = config.protocolSettings := by
  unfold SelectsAs at h
  cases hselected : config.protocol with
  | tcp =>
    rw [hselected] at h
    rw [h]
    simp only [protocolSettings, hselected]
    rfl
  | rtu =>
    rw [hselected] at h
    rw [h]
    simp only [protocolSettings, hselected]
    rfl

theorem validate_eq (h : config.SelectsAs config') : config'.validate = config.validate := by
  obtain ⟨hunit, -, -, hcache, -⟩ := h.shared
  rw [validate, validate, hunit, hcache, h.protocolSettings_eq]

theorem openTransport_eq (h : config.SelectsAs config') :
    config'.openTransport resolve decode = config.openTransport resolve decode := by
  rw [openTransport, openTransport, h.protocolSettings_eq]
  unfold SelectsAs at h
  cases hselected : config.protocol with
  | tcp =>
    -- the port and its options are for a serial line only
    simp only [protocolSettings, hselected]
    cases config.tcpSettings <;> rfl
  | rtu =>
    rw [hselected] at h
    rw [h]
    rfl

theorem buildWith_eq (h : config.SelectsAs config') :
    config'.buildWith resolve decode = config.buildWith resolve decode := by
  obtain ⟨hunit, hprotocol, hblocks, hcache, hretry⟩ := h.shared
  rw [buildWith, buildWith, h.validate_eq, h.openTransport_eq, hunit, hprotocol, hblocks, hcache,
    hretry]

end SelectsAs

/-- An invalid configuration is refused for what is wrong with it, and nothing is done. With a
valid one a device is built as it says, or its transport cannot be had: the address of the host is
not found, or the serial port cannot be opened, and nothing else is done then. The settings of the
protocol that is not selected play no part in this. -/
theorem buildWith_exact (resolve : String → Option Host) (config : EngineConfig)
    (decode : DecodeLevel) :
    (∀ error, config.validate = .error error →
      config.buildWith resolve decode = pure (.error error)) ∧
    (config.validate = .ok () →
      (∃ history result, (config.buildWith resolve decode).Runs history result) ∧
      ∀ history result, (config.buildWith resolve decode).Runs history result →
        (∃ error, result = .error error ∧ config.Unopened resolve history error) ∨
          ∃ device, result = .ok device ∧ Built resolve config decode history device) ∧
    ∀ config', config.SelectsAs config' → config'.validate = config.validate ∧
      config'.buildWith resolve decode = config.buildWith resolve decode := by
  refine ⟨?invalid, ?valid, fun config' h => ⟨h.validate_eq, h.buildWith_eq⟩⟩
  case invalid =>
    intro error herror
    rw [buildWith, herror]
  case valid =>
    intro hvalid
    refine ⟨Action.exists_runs _, ?_⟩
    intro history result hruns
    obtain ⟨⟨unit, hunit⟩, ⟨cache, hcache⟩, hsettings⟩ := validate_eq_ok_iff.mp hvalid
    obtain ⟨rfl, hbroadcast, hlow⟩ := unit_eq_ok_iff.mp hunit
    rw [buildWith, hvalid, hunit] at hruns
    obtain ⟨opening, rest, opened, rfl, hopen, hrest⟩ := Action.runs_bind_iff.mp hruns
    rcases openTransport_runs hsettings hopen with ⟨error, rfl, hunopened⟩ |
      ⟨transport, rfl, hopens⟩
    · obtain ⟨rfl, rfl⟩ := Action.runs_pure_iff.mp hrest
      rw [List.append_nil]
      exact .inl ⟨error, rfl, hunopened⟩
    · obtain ⟨⟨⟩, rest, rfl, hcreate⟩ := Action.runs_perform_bind_iff.mp hrest
      -- the cache was found to be valid with the rest of the configuration
      rw [hcache] at hcreate
      obtain ⟨first, second, device, rfl, hdevice, hdone⟩ := Action.runs_bind_iff.mp hcreate
      obtain ⟨rfl, rfl⟩ := Action.runs_pure_iff.mp hdone
      obtain ⟨hunit', hprotocol, hretry, caching, hcached, rfl⟩ := create_runs hcache hdevice
      refine .inr ⟨device, rfl, hunit', hunit' ▸ hbroadcast, hunit' ▸ hlow,
        hprotocol.trans hopens.protocol_eq, hretry, opening, transport, caching, hopens, hcached,
        ?_⟩
      rw [List.append_nil]

example : (buildWith (fun _ => some (.v4 [10, 0, 0, 7])) { protocol := .tcp, tcpHost := " plc " }
    .nothing).Runs
      [⟨.report (.deviceBuilt ⟨1⟩ .tcp 0), ()⟩,
        ⟨.newEngine
          (.tcp { settings := { host := "plc", port := 502 }, host := .v4 [10, 0, 0, 7] }),
          (3 : Nat)⟩]
      (.ok { engine := ⟨⟨1⟩, .tcp, 3⟩ }) :=
  .ask (.ask (.done _))

end EngineConfig

end ModbusMaster
