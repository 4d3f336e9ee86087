import Llmxy.ApiKeys
import Llmxy.Lib.Checks
import Llmxy.Lib.SerialTable
import Mathlib.Data.List.Nodup

/-!
# Envoy instances

The endpoints of the admin API that create, change and delete envoy instances, one request
after the other.  A local instance binds two ports of the API's host, a remote one binds its
ports elsewhere; the database keeps neither unique, the endpoints do.

What the host and the network answer comes with each request, and so do the parses of
`urlparse`.  An instance keeps the columns that these endpoints read or write.  The bounds that
the schemas put on ports and lengths are left out, so a body here is any body.

## Main definitions

* `EnvoyInstance`, `EnvoyHost` — a row, and what a request meets outside the table.
* `ensureLocalPortsAvailable` — the check of the two ports.
* `createInstance`, `updateInstance`, `deleteInstance` — the endpoints.
* `localPorts`, `PortsApart` — the ports that local instances bind, and the invariant.
-/

namespace Llmxy

/-- `EnvoyMode`. -/
inductive EnvoyMode where
  | local_ | remote
  deriving DecidableEq

/-- `EnvoyStatus`. -/
inductive EnvoyStatus where
  | stopped | starting | running | error
  deriving DecidableEq

/-- `envoy_instances`. -/
structure EnvoyInstance where
  id : ℤ
  name : Str
  mode : EnvoyMode
  nodeId : Str
  listenPort : ℤ
  adminPort : Option ℤ
  adminUrl : Option Str
  status : EnvoyStatus := .stopped
  configDir : Option Str := none
  logDir : Option Str := none
  lastHealthAt : Option ℤ := none
  lastError : Option Str := none
  deriving DecidableEq

instance : HasId EnvoyInstance := ⟨EnvoyInstance.id⟩

/-- `EnvoyInstanceIn`. -/
structure EnvoyInstanceIn where
  name : Str
  mode : EnvoyMode := .local_
  listenPort : ℤ
  adminPort : Option ℤ := none
  host : Option Str := none
  adminUrl : Option Str := none

/-- `EnvoyInstanceUpdate`. -/
structure EnvoyInstanceUpdate where
  name : Option Str := none
  listenPort : Option ℤ := none
  adminPort : Option ℤ := none
  host : Option Str := none
  adminUrl : Option Str := none

/-- What a request meets outside the table. -/
structure EnvoyHost where
  /-- `_local_precheck`, with its `_local_precheck_error_detail` when it is not ok. -/
  localPrecheck : Option Str := none
  /-- `_port_in_use_sync`. -/
  portInUse : ℤ → Bool := fun _ => false
  /-- `_paths`. -/
  paths : Str → Str × Str := fun name => (name, name)
  /-- `os.makedirs` of the two directories: the text of the error it raises. -/
  makedirs : Str × Str → Option Str := fun _ => none
  /-- `ENVOY_CONFIG_ROOT` and `ENVOY_LOG_ROOT`, as `repr` shows them. -/
  configRoot : Str := []
  logRoot : Str := []
  /-- `urlparse(url).hostname`, which may raise. -/
  hostname : Str → Except HttpError (Option Str) := fun _ => .ok none
  /-- A GET of the url answers 200 in time. -/
  ready : Str → Bool := fun _ => true
  now : ℤ := 0
  /-- The text of an `IntegrityError`. -/
  orig : Str := []

/-- The table of instances. -/
abbrev EnvoyTable := SerialTable EnvoyInstance

/-! ### Queries -/

/-- `_port_used_by_local_instance`. -/
def portUsedByLocalInstance (t : EnvoyTable) (port : ℤ) (excludeId : Option ℤ) :
    Option EnvoyInstance :=
  t.rows.find? fun row => row.mode = .local_ ∧ (row.listenPort = port ∨ row.adminPort = some port) ∧
    some row.id ≠ excludeId

/-- `scalar_one_or_none`.  That two rows are found is not caught. -/
def scalarOneOrNone : List EnvoyInstance → Except HttpError (Option EnvoyInstance)
  | [] => .ok none
  | [row] => .ok (some row)
  | _ => .error ⟨500, str "Internal Server Error"⟩

/-- A row that is found is a clash. -/
def refuseClash (found : List EnvoyInstance) (detail : EnvoyInstance → Str) :
    Except HttpError Unit := do
  match ← scalarOneOrNone found with
  | some clash => throw ⟨409, detail clash⟩
  | none => pure ()

/-- One port of `_ensure_local_ports_available`. -/
def ensurePortAvailable (host : EnvoyHost) (t : EnvoyTable) (excludeId : Option ℤ) (label : Str)
    (port : ℤ) : Except HttpError Unit :=
  match portUsedByLocalInstance t port excludeId with
  | some clash =>
      let usedAs := if clash.listenPort = port then str "listen_port" else str "admin_port"
      .error ⟨409, label ++ str " " ++ showInt port ++ str " already used as " ++ usedAs ++
        str " by local instance id=" ++ showInt clash.id ++ str " (" ++ clash.name ++ str ")"⟩
  | none => refuseIf (host.portInUse port = true) ⟨409, label ++ str " " ++ showInt port ++
      str " is already in use by another process on this host"⟩

/-- `_ensure_local_ports_available`. -/
def ensureLocalPortsAvailable (host : EnvoyHost) (t : EnvoyTable) (listenPort adminPort : ℤ)
    (excludeId : Option ℤ) : Except HttpError Unit := do
  refuseIf (listenPort = adminPort) ⟨400, str "listen_port and admin_port must differ"⟩
  ensurePortAvailable host t excludeId (str "listen_port") listenPort
  ensurePortAvailable host t excludeId (str "admin_port") adminPort

/-- What the unique columns make of a commit. -/
def commitRow (host : EnvoyHost) (t : EnvoyTable) (inst : EnvoyInstance) :
    Except HttpError Unit :=
  refuseIf (∃ row ∈ t.rows, row.id ≠ inst.id ∧ (row.name = inst.name ∨ row.nodeId = inst.nodeId))
    ⟨409, str "unique constraint violated: " ++ host.orig⟩

/-! ### The url of a remote instance -/

/-- `_normalize_host`. -/
def normalizeHost (host : EnvoyHost) (raw : Str) : Except HttpError Str :=
  let s := strip raw
  if str "://" <:+: s then (host.hostname s).map fun name => (name.filter (· ≠ [])).getD s
  else if s.count 58 = 1 ∧ startsWith (str "[") s = false then .ok (s.takeWhile (· ≠ 58))
  else .ok s

/-- `_build_remote_admin_url`. -/
def buildRemoteAdminUrl (host : EnvoyHost) (name : Option Str) (adminPort : Option ℤ)
    (fallback : Option Str) : Except HttpError (Option Str) :=
  match fallback.filter (· ≠ []), name.filter (· ≠ []), adminPort.filter (· ≠ 0) with
  | some url, _, _ => .ok (some (strip url))
  | none, some name, some port =>
      (normalizeHost host name).map fun h => some (str "http://" ++ h ++ str ":" ++ showInt port)
  | none, _, _ => .ok none

/-- `_probe_one` of a remote instance, and what is recorded of it. -/
def EnvoyInstance.probed (host : EnvoyHost) (failure : Str) (url : Str) (inst : EnvoyInstance) :
    EnvoyInstance :=
  let base := (url.reverse.dropWhile (· = 47)).reverse
  if url ≠ [] ∧ host.ready (base ++ str "/ready") = true then
    { inst with lastHealthAt := some host.now, status := .running, lastError := none }
  else { inst with lastHealthAt := some host.now, status := .error, lastError := some failure }

/-! ### Create -/

/-- The row that a POST adds, but for its id. -/
def EnvoyInstanceIn.row (req : EnvoyInstanceIn) (adminPort : ℤ) (adminUrl : Option Str) :
    EnvoyInstance where
  id := 0
  name := req.name
  mode := req.mode
  nodeId := (match req.mode with
    | .local_ => str "llmxy-"
    | .remote => str "llmxy-remote-") ++ req.name
  listenPort := req.listenPort
  adminPort := some adminPort
  adminUrl := adminUrl

/-- A required `admin_port`. -/
def requiredPort (detail : Str) : Option ℤ → Except HttpError ℤ
  | some port => .ok port
  | none => .error ⟨400, detail⟩

/-- No instance has the name of a POST. -/
def EnvoyInstanceIn.nameFree (req : EnvoyInstanceIn) (t : EnvoyTable) : Except HttpError Unit :=
  refuseClash (t.rows.filter (·.name = req.name)) fun clash =>
    str "name already in use by instance id=" ++ showInt clash.id ++ str " (" ++ clash.name ++
      str ")"

/-- The row of a local instance. -/
def EnvoyInstanceIn.createLocal (host : EnvoyHost) (t : EnvoyTable) (req : EnvoyInstanceIn) :
    Except HttpError EnvoyInstance := do
  refuseIf host.localPrecheck.isSome ⟨400, host.localPrecheck.getD []⟩
  let adminPort ← requiredPort (str "admin_port required for local mode") req.adminPort
  ensureLocalPortsAvailable host t req.listenPort adminPort none
  req.nameFree t
  let dirs := host.paths req.name
  let failed := host.makedirs dirs
  refuseIf failed.isSome ⟨400, str "cannot create envoy directories (" ++ failed.getD [] ++
    str "). Ensure ENVOY_CONFIG_ROOT=" ++ host.configRoot ++ str " and ENVOY_LOG_ROOT=" ++
    host.logRoot ++ str " are writable by the api process."⟩
  return { req.row adminPort (some (str "http://127.0.0.1:" ++ showInt adminPort)) with
    configDir := some dirs.1
    logDir := some dirs.2 }

/-- The row of a remote instance, probed once. -/
def EnvoyInstanceIn.createRemote (host : EnvoyHost) (t : EnvoyTable) (req : EnvoyInstanceIn) :
    Except HttpError EnvoyInstance := do
  let adminPort ← requiredPort
    (str "admin_port required for remote mode (envoy's admin /ready port)") req.adminPort
  refuseIf (req.host.getD [] = [] ∧ req.adminUrl.getD [] = [])
    ⟨400, str "host required for remote mode — deploy envoy first, " ++
      str "then submit with its reachable host"⟩
  let adminUrl ← buildRemoteAdminUrl host req.host req.adminPort req.adminUrl
  req.nameFree t
  let inst := req.row adminPort adminUrl
  return match adminUrl.filter (· ≠ []) with
    | some url => inst.probed host (str "initial /ready probe failed") url
    | none => inst

/-- The row, by its mode. -/
def EnvoyInstanceIn.create (host : EnvoyHost) (t : EnvoyTable) (req : EnvoyInstanceIn) :
    Except HttpError EnvoyInstance :=
  match req.mode with
  | .local_ => req.createLocal host t
  | .remote => req.createRemote host t

/-- `POST /instances`. -/
def createInstance (host : EnvoyHost) (req : EnvoyInstanceIn) (t : EnvoyTable) :
    Except HttpError EnvoyTable := do
  let inst ← req.create host t
  commitRow host t { inst with id := t.nextId }
  return t.insert (fun k => { inst with id := k }) fun _ => rfl

/-! ### Update -/

/-- The row is replaced. -/
def EnvoyInstance.replace (inst : EnvoyInstance) : RowUpdate EnvoyInstance :=
  ⟨fun row => { inst with id := row.id }, fun _ => rfl⟩

/-- The name that a PATCH assigns. -/
def EnvoyInstanceUpdate.assignName (t : EnvoyTable) (req : EnvoyInstanceUpdate)
    (inst : EnvoyInstance) : Except HttpError EnvoyInstance := do
  let name := req.name.getD inst.name
  checkWhen (name ≠ inst.name) <|
    refuseClash (t.rows.filter fun row => row.name = name ∧ row.id ≠ inst.id) fun clash =>
      str "name already in use by instance id=" ++ showInt clash.id
  return { inst with name }

/-- Local instances but this one, with the port in a column. -/
def refusePortClash (t : EnvoyTable) (inst : EnvoyInstance) (label : Str)
    (column : EnvoyInstance → Option ℤ) (port : ℤ) : Except HttpError Unit :=
  refuseClash
    (t.rows.filter fun row => row.mode = .local_ ∧ column row = some port ∧ row.id ≠ inst.id)
    fun clash => label ++ str " in use by local instance id=" ++ showInt clash.id

/-- A PATCH of a local instance. -/
def EnvoyInstanceUpdate.assignLocal (host : EnvoyHost) (t : EnvoyTable)
    (req : EnvoyInstanceUpdate) (inst : EnvoyInstance) : Except HttpError EnvoyInstance := do
  let newListen := req.listenPort.getD inst.listenPort
  let newAdmin ← requiredPort (str "admin_port required for local mode")
    ((req.adminPort.or inst.adminPort).filter (· ≠ 0))
  let moved := newListen ≠ inst.listenPort ∨ some newAdmin ≠ inst.adminPort
  refuseIf (inst.status = .running ∧ moved)
    ⟨409, str "stop the local envoy before changing ports"⟩
  checkWhen moved <| ensureLocalPortsAvailable host t newListen newAdmin (some inst.id)
  refuseIf (newListen = newAdmin) ⟨400, str "listen_port and admin_port must differ"⟩
  checkWhen (newListen ≠ inst.listenPort) <|
    refusePortClash t inst (str "listen_port") (some ·.listenPort) newListen
  checkWhen (some newAdmin ≠ inst.adminPort) <|
    refusePortClash t inst (str "admin_port") EnvoyInstance.adminPort newAdmin
  return { inst with
    listenPort := newListen
    adminPort := some newAdmin
    adminUrl :=
      if some newAdmin = inst.adminPort then inst.adminUrl
      else some (str "http://127.0.0.1:" ++ showInt newAdmin) }

/-- The host of a remote instance, from the body or from the url it has. -/
def EnvoyInstanceUpdate.newHost (host : EnvoyHost) (req : EnvoyInstanceUpdate)
    (inst : EnvoyInstance) : Except HttpError (Option Str) :=
  match req.host, req.adminPort, inst.adminUrl.filter (· ≠ []) with
  | none, some _, some url => host.hostname url
  | newHost, _, _ => .ok newHost

/-- A PATCH of a remote instance. -/
def EnvoyInstanceUpdate.assignRemote (host : EnvoyHost) (req : EnvoyInstanceUpdate)
    (inst : EnvoyInstance) : Except HttpError EnvoyInstance :=
  let inst := { inst with listenPort := req.listenPort.getD inst.listenPort }
  if req.host = none ∧ req.adminPort = none ∧ req.adminUrl = none then .ok inst
  else do
    let newHost ← req.newHost host inst
    let derived ← buildRemoteAdminUrl host newHost (req.adminPort.or inst.adminPort) req.adminUrl
    match derived.filter (· ≠ []) with
    | none =>
        .error ⟨400, str "remote mode requires \x60host\x60 + \x60admin_port\x60 " ++
          str "to update connection info"⟩
    | some url =>
        let inst := { inst with
          adminUrl := some url
          adminPort := req.adminPort.or inst.adminPort }
        return inst.probed host (str "post-update /ready probe failed") url

/-- A PATCH, by the mode of the instance. -/
def EnvoyInstanceUpdate.assign (host : EnvoyHost) (t : EnvoyTable) (req : EnvoyInstanceUpdate)
    (inst : EnvoyInstance) : Except HttpError EnvoyInstance :=
  match inst.mode with
  | .local_ => req.assignLocal host t inst
  | .remote => req.assignRemote host inst

/-- `PATCH /instances/{inst_id}`. -/
def updateInstance (host : EnvoyHost) (instId : ℤ) (req : EnvoyInstanceUpdate) (t : EnvoyTable) :
    Except HttpError EnvoyTable :=
  match t.get? instId with
  | none => .error ⟨404, str "Not Found"⟩
  | some row => do
      let inst ← req.assignName t row
      let inst ← req.assign host t inst
      commitRow host t inst
      return t.update instId inst.replace

/-! ### Delete -/

/-- `DELETE /instances/{inst_id}`.  The directories of a local instance go after the commit. -/
def deleteInstance (instId : ℤ) (t : EnvoyTable) : Except HttpError EnvoyTable :=
  match t.get? instId with
  | none => .error ⟨404, str "Not Found"⟩
  | some row => do
      refuseIf (row.mode = .local_ ∧ row.status = .running)
        ⟨409, str "stop the instance before deleting"⟩
      return t.delete instId

/-! ### Runs -/

/-- A request for an instance. -/
inductive EnvoyRequest where
  | create (host : EnvoyHost) (req : EnvoyInstanceIn)
  | update (host : EnvoyHost) (instId : ℤ) (req : EnvoyInstanceUpdate)
  | delete (instId : ℤ)
  /-- What start, stop and the health loop write. -/
  | mark (instId : ℤ) (status : EnvoyStatus) (lastError : Option Str)

/-- Its endpoint. -/
def EnvoyRequest.exec : EnvoyRequest → EnvoyTable → Except HttpError EnvoyTable
  | create host req, t => createInstance host req t
  | update host instId req, t => updateInstance host instId req t
  | delete instId, t => deleteInstance instId t
  | mark instId status lastError, t =>
      .ok (t.update instId ⟨fun row => { row with status, lastError }, fun _ => rfl⟩)

/-- The table after a request.  What a refused request assigned is rolled back. -/
def EnvoyRequest.serve (t : EnvoyTable) (r : EnvoyRequest) : EnvoyTable :=
  match r.exec t with
  | .ok t' => t'
  | .error _ => t

/-- The ports of an instance. -/
def EnvoyInstance.ports (inst : EnvoyInstance) : List ℤ := inst.listenPort :: inst.adminPort.toList

/-- The ports of the local instances. -/
def localPorts (t : EnvoyTable) : List ℤ :=
  (t.rows.filter (·.mode = .local_)).flatMap EnvoyInstance.ports

/-! ### The ports of local instances -/

/-- No local instance but the excluded one has a port of `inst`, and its own differ. -/
structure PortsFree (t : EnvoyTable) (excludeId : Option ℤ) (inst : EnvoyInstance) : Prop where
  nodup : inst.ports.Nodup
  disjoint : ∀ row ∈ t.rows, row.mode = .local_ → some row.id ≠ excludeId →
    inst.ports.Disjoint row.ports

/-- Local instances share no port. -/
structure PortsApart (t : EnvoyTable) : Prop where
  nodup : ∀ row ∈ t.rows, row.mode = .local_ → row.ports.Nodup
  disjoint : ∀ row ∈ t.rows, ∀ row' ∈ t.rows, row.mode = .local_ → row'.mode = .local_ →
    row.id ≠ row'.id → row.ports.Disjoint row'.ports

section
variable {host : EnvoyHost} {t t' : EnvoyTable} {inst row : EnvoyInstance} {excludeId : Option ℤ}

theorem mem_ports {port : ℤ} :
    port ∈ row.ports ↔ row.listenPort = port ∨ row.adminPort = some port := by
  rw [EnvoyInstance.ports, List.mem_cons, Option.mem_toList, @eq_comm _ port]

theorem portUsedByLocalInstance_eq_none {port : ℤ} :
    portUsedByLocalInstance t port excludeId = none ↔
      ∀ row ∈ t.rows, row.mode = .local_ → some row.id ≠ excludeId → port ∉ row.ports := by
  rw [portUsedByLocalInstance, List.find?_eq_none]
  refine forall₂_congr fun row _ => ?_
  rw [decide_eq_true_iff, mem_ports]
  tauto

theorem ensurePortAvailable_ok {label : Str} {port : ℤ} :
    ensurePortAvailable host t excludeId label port = .ok () ↔
      portUsedByLocalInstance t port excludeId = none ∧ host.portInUse port = false := by
  rw [ensurePortAvailable]
  cases portUsedByLocalInstance t port excludeId with
  | none => simp [refuseIf_ok]
  | some clash => simp

/-- Two ports are available when they differ, no other local instance has one of them, and no
process of the host does. -/
theorem ensureLocalPortsAvailable_ok {listenPort adminPort : ℤ} :
    ensureLocalPortsAvailable host t listenPort adminPort excludeId = .ok () ↔
      listenPort ≠ adminPort ∧ ∀ port ∈ [listenPort, adminPort],
        portUsedByLocalInstance t port excludeId = none ∧ host.portInUse port = false := by
  refine check_ok.trans (and_congr refuseIf_ok (check_ok.trans ?_))
  rw [ensurePortAvailable_ok, ensurePortAvailable_ok]
  simp

theorem portsFree_of_available {port : ℤ}
    (h : ensureLocalPortsAvailable host t inst.listenPort port excludeId = .ok ())
    (hadmin : inst.adminPort = some port) : PortsFree t excludeId inst := by
  obtain ⟨hne, hfree⟩ := ensureLocalPortsAvailable_ok.mp h
  have hports : inst.ports = [inst.listenPort, port] := by rw [EnvoyInstance.ports, hadmin]; rfl
  refine ⟨?_, fun row hrow hlocal hid => ?_⟩
  · rw [hports]
    simp [hne]
  · rw [hports]
    exact fun p hp => portUsedByLocalInstance_eq_none.mp (hfree p hp).1 row hrow hlocal hid

/-! ### What an accepted request does -/

theorem probed_mode (host : EnvoyHost) (failure url : Str) (inst : EnvoyInstance) :
    (inst.probed host failure url).mode = inst.mode := by
  simp only [EnvoyInstance.probed]
  split_ifs <;> rfl

theorem createLocal_ok {req : EnvoyInstanceIn} (h : req.createLocal host t = .ok inst) :
    PortsFree t none inst := by
  obtain ⟨-, h⟩ := check_ok.mp h
  obtain ⟨port, -, h⟩ := bind_ok.mp h
  obtain ⟨havailable, h⟩ := check_ok.mp h
  obtain ⟨-, h⟩ := check_ok.mp h
  obtain ⟨-, h⟩ := check_ok.mp h
  cases h
  exact portsFree_of_available havailable rfl

theorem createRemote_ok {req : EnvoyInstanceIn} (h : req.createRemote host t = .ok inst) :
    inst.mode = req.mode := by
  obtain ⟨port, -, h⟩ := bind_ok.mp h
  obtain ⟨-, h⟩ := check_ok.mp h
  obtain ⟨adminUrl, -, h⟩ := bind_ok.mp h
  obtain ⟨-, h⟩ := check_ok.mp h
  cases h
  split
  · exact probed_mode ..
  · rfl

/-- A POST adds a row, whose ports are free if it is local. -/
theorem createInstance_ok {req : EnvoyInstanceIn} (h : createInstance host req t = .ok t') :
    ∃ inst : EnvoyInstance, t' = t.insert (fun k => { inst with id := k }) (fun _ => rfl) ∧
      (inst.mode = .local_ → PortsFree t none inst) := by
  obtain ⟨inst, hinst, h⟩ := bind_ok.mp h
  obtain ⟨-, h⟩ := check_ok.mp h
  cases h
  refine ⟨inst, rfl, fun hlocal => ?_⟩
  rw [EnvoyInstanceIn.create] at hinst
  cases hmode : req.mode with
  | local_ =>
      rw [hmode] at hinst
      exact createLocal_ok hinst
  | remote =>
      rw [hmode] at hinst
      rw [createRemote_ok hinst, hmode] at hlocal
      cases hlocal

theorem assignName_ok {req : EnvoyInstanceUpdate} (h : req.assignName t row = .ok inst) :
    inst = { row with name := inst.name } := by
  obtain ⟨-, h⟩ := check_ok.mp h
  cases h
  rfl

/-- A PATCH leaves a local instance where it was, or moves it to ports that are free. -/
theorem assignLocal_ok {req : EnvoyInstanceUpdate} (h : req.assignLocal host t row = .ok inst) :
    inst.mode = row.mode ∧ (inst.ports = row.ports ∨ PortsFree t (some row.id) inst) := by
  obtain ⟨newAdmin, -, h⟩ := bind_ok.mp h
  obtain ⟨-, h⟩ := check_ok.mp h
  obtain ⟨havailable, h⟩ := check_ok.mp h
  obtain ⟨-, h⟩ := check_ok.mp h
  obtain ⟨-, h⟩ := check_ok.mp h
  obtain ⟨-, h⟩ := check_ok.mp h
  cases h
  refine ⟨rfl, ?_⟩
  by_cases hmoved : req.listenPort.getD row.listenPort ≠ row.listenPort ∨
      some newAdmin ≠ row.adminPort
  · exact .inr (portsFree_of_available (checkWhen_ok.mp havailable hmoved) rfl)
  · obtain ⟨hlisten, hadmin⟩ := not_or.mp hmoved
    left
    rw [EnvoyInstance.ports, EnvoyInstance.ports, not_not.mp hlisten, not_not.mp hadmin]

theorem assignRemote_mode {req : EnvoyInstanceUpdate} (h : req.assignRemote host row = .ok inst) :
    inst.mode = row.mode := by
  rw [EnvoyInstanceUpdate.assignRemote] at h
  split_ifs at h
  · cases h
    rfl
  · obtain ⟨newHost, -, h⟩ := bind_ok.mp h
    obtain ⟨derived, -, h⟩ := bind_ok.mp h
    split at h
    · cases h
    · cases h
      exact probed_mode ..

/-- A PATCH replaces a row.  It keeps its mode, and if it is local it stays where it was or
moves to ports that are free. -/
theorem updateInstance_ok {instId : ℤ} {req : EnvoyInstanceUpdate}
    (h : updateInstance host instId req t = .ok t') :
    ∃ row inst : EnvoyInstance, t.get? instId = some row ∧ t' = t.update instId inst.replace ∧
      inst.mode = row.mode ∧
      (row.mode = .local_ → inst.ports = row.ports ∨ PortsFree t (some instId) inst) := by
  rw [updateInstance] at h
  cases hget : t.get? instId with
  | none => simp [hget] at h
  | some row =>
      simp only [hget] at h
      obtain ⟨named, hnamed, h⟩ := bind_ok.mp h
      obtain ⟨inst, hinst, h⟩ := bind_ok.mp h
      obtain ⟨-, h⟩ := check_ok.mp h
      cases h
      have heq := assignName_ok hnamed
      have hmode : named.mode = row.mode := by rw [heq]
      have hports : named.ports = row.ports := by rw [heq]; rfl
      have hid : named.id = instId := by rw [heq]; exact (SerialTable.get?_eq_some.mp hget).2
      refine ⟨row, inst, rfl, rfl, ?_⟩
      rw [EnvoyInstanceUpdate.assign] at hinst
      cases hm : row.mode with
      | local_ =>
          simp only [hmode, hm] at hinst
          obtain ⟨hkeep, hfree⟩ := assignLocal_ok hinst
          rw [hports, hid] at hfree
          exact ⟨hkeep.trans (hmode.trans hm), fun _ => hfree⟩
      | remote =>
          simp only [hmode, hm] at hinst
          exact ⟨(assignRemote_mode hinst).trans (hmode.trans hm), fun hlocal => by cases hlocal⟩

theorem deleteInstance_ok {instId : ℤ} (h : deleteInstance instId t = .ok t') :
    t' = t.delete instId := by
  rw [deleteInstance] at h
  cases hget : t.get? instId with
  | none => simp [hget] at h
  | some row =>
      simp only [hget] at h
      obtain ⟨-, h⟩ := check_ok.mp h
      cases h
      rfl

/-! ### The invariant -/

namespace PortsApart

theorem empty : PortsApart .empty where
  nodup := fun _ hrow => by cases hrow
  disjoint := fun _ hrow => by cases hrow

theorem insert (h : PortsApart t) (hfree : inst.mode = .local_ → PortsFree t none inst) :
    PortsApart (t.insert (fun k => { inst with id := k }) fun _ => rfl) where
  nodup := by
    intro row hrow hlocal
    obtain hrow | rfl := (SerialTable.mem_insert _).mp hrow
    · exact h.nodup row hrow hlocal
    · exact (hfree hlocal).nodup
  disjoint := by
    intro row hrow row' hrow' hlocal hlocal' hne
    obtain hrow | rfl := (SerialTable.mem_insert _).mp hrow
    · obtain hrow' | rfl := (SerialTable.mem_insert _).mp hrow'
      · exact h.disjoint row hrow row' hrow' hlocal hlocal' hne
      · exact ((hfree hlocal').disjoint row hrow hlocal (by simp)).symm
    · obtain hrow' | rfl := (SerialTable.mem_insert _).mp hrow'
      · exact (hfree hlocal).disjoint row' hrow' hlocal' (by simp)
      · exact absurd rfl hne

/-- A row may be replaced by one with the same ports, or with ports that are free. -/
theorem update (h : PortsApart t) {instId : ℤ} {f : RowUpdate EnvoyInstance}
    (hf : ∀ row, t.get? instId = some row → (f.1 row).mode = .local_ → row.mode = .local_ ∧
      ((f.1 row).ports = row.ports ∨ PortsFree t (some instId) (f.1 row))) :
    PortsApart (t.update instId f) := by
  have hat : ∀ row ∈ t.rows, row.id = instId → (f.1 row).mode = .local_ → row.mode = .local_ ∧
      ((f.1 row).ports = row.ports ∨ PortsFree t (some instId) (f.1 row)) :=
    fun row hrow hid => hf row (SerialTable.get?_eq_some.mpr ⟨hrow, hid⟩)
  -- the changed row against another
  have happart : ∀ row ∈ t.rows, row.id = instId → (f.1 row).mode = .local_ →
      ∀ row' ∈ t.rows, row'.id ≠ instId → row'.mode = .local_ →
        (f.1 row).ports.Disjoint row'.ports := by
    intro row hrow hid hlocal row' hrow' hid' hlocal'
    obtain ⟨hold, hsame | hfree⟩ := hat row hrow hid hlocal
    · rw [hsame]
      exact h.disjoint row hrow row' hrow' hold hlocal' fun heq => hid' (heq ▸ hid)
    · exact hfree.disjoint row' hrow' hlocal' fun heq => hid' (Option.some.inj heq)
  constructor
  · intro row hrow hlocal
    obtain ⟨r, hr, rfl⟩ := SerialTable.mem_update.mp hrow
    split_ifs at hlocal ⊢ with hid
    · obtain ⟨hold, hsame | hfree⟩ := hat r hr hid hlocal
      · rw [hsame]
        exact h.nodup r hr hold
      · exact hfree.nodup
    · exact h.nodup r hr hlocal
  · intro row hrow row' hrow' hlocal hlocal' hne
    obtain ⟨r, hr, rfl⟩ := SerialTable.mem_update.mp hrow
    obtain ⟨r', hr', rfl⟩ := SerialTable.mem_update.mp hrow'
    split_ifs at hlocal hlocal' hne ⊢ with hid hid'
    · exact absurd ((f.2 r).trans (hid.trans (hid'.symm.trans (f.2 r').symm))) hne
    · exact happart r hr hid hlocal r' hr' hid' hlocal'
    · rename_i hid'
      exact (happart r' hr' hid' hlocal' r hr hid hlocal).symm
    · exact h.disjoint r hr r' hr' hlocal hlocal' hne

theorem delete (h : PortsApart t) (instId : ℤ) : PortsApart (t.delete instId) where
  nodup := fun row hrow => h.nodup row (SerialTable.mem_delete.mp hrow).1
  disjoint := fun row hrow row' hrow' =>
    h.disjoint row (SerialTable.mem_delete.mp hrow).1 row' (SerialTable.mem_delete.mp hrow').1

/-- One request. -/
theorem serve (h : PortsApart t) (r : EnvoyRequest) : PortsApart (r.serve t) := by
  rw [EnvoyRequest.serve]
  cases hexec : r.exec t with
  | error e => exact h
  | ok t' =>
      cases r with
      | create host req =>
          obtain ⟨inst, rfl, hfree⟩ := createInstance_ok hexec
          exact h.insert hfree
      | update host instId req =>
          obtain ⟨row, inst, hget, rfl, hmode, hports⟩ := updateInstance_ok hexec
          refine h.update fun row' hget' hlocal => ?_
          cases hget.symm.trans hget'
          have hold : row.mode = .local_ := hmode.symm.trans hlocal
          exact ⟨hold, (hports hold).imp_right fun hfree => ⟨hfree.nodup, hfree.disjoint⟩⟩
      | delete instId =>
          rw [deleteInstance_ok hexec]
          exact h.delete instId
      | mark instId status lastError =>
          cases hexec
          exact h.update fun row _ hlocal => ⟨hlocal, .inl rfl⟩

/-- Any requests. -/
theorem run (requests : List EnvoyRequest) (h : PortsApart t) :
    PortsApart (requests.foldl EnvoyRequest.serve t) := by
  induction requests generalizing t with
  | nil => exact h
  | cons r requests ih => exact ih (h.serve r)

/-- The invariant makes the list of all ports duplicate-free. -/
theorem nodup_localPorts (h : PortsApart t) : (localPorts t).Nodup := by
  refine List.nodup_flatMap.mpr ⟨fun row hrow => ?_, ?_⟩
  · obtain ⟨hmem, hlocal⟩ := List.mem_filter.mp hrow
    exact h.nodup row hmem (of_decide_eq_true hlocal)
  · have hids : t.rows.Pairwise fun row row' => row.id ≠ row'.id :=
      List.pairwise_map.mp t.table.nodup
    refine (hids.sublist List.filter_sublist).imp_of_mem fun {row row'} hrow hrow' hne => ?_
    obtain ⟨hmem, hlocal⟩ := List.mem_filter.mp hrow
    obtain ⟨hmem', hlocal'⟩ := List.mem_filter.mp hrow'
    exact h.disjoint row hmem row' hmem' (of_decide_eq_true hlocal) (of_decide_eq_true hlocal') hne

end PortsApart

/-- **Local instances never share a port.**  Whatever is created, changed and deleted, and
whichever ports other processes hold, no listen or admin port of a local instance is another's
or its own other port. -/
theorem localPorts_run_nodup (requests : List EnvoyRequest) :
    (localPorts (requests.foldl EnvoyRequest.serve .empty)).Nodup :=
  (PortsApart.empty.run requests).nodup_localPorts

/-- A stopped instance swaps its two ports. -/
example : localPorts ([
    EnvoyRequest.create {} { name := str "a", listenPort := 9000, adminPort := some 9001 },
    .update {} 1 { listenPort := some 9001, adminPort := some 9000 }].foldl
      EnvoyRequest.serve .empty) = [9001, 9000] := by decide +kernel

end

end Llmxy
