import OpenRadiusWeb.Policy.Engine

/-! # Bouncing a switch port

The handler reads the address and the port from the message before its `try`, so a message
without them raises; everything later is caught and logged.
-/

namespace OpenRadiusWeb.Switch

open OpenRadiusWeb.Policy (PyVal PyErr Builtins item)

/-- The columns of `network_devices` that a login needs. -/
structure SshRow where
  username : Option String
  passwordEncrypted : Option String

structure SwitchEnv where
  builtins : Builtins
  sshRow : PyVal → Except PyErr (Option SshRow)
  decryptSecret : Option String → Except PyErr (Option String)
  /-- The output of the commands on a switch. -/
  connect : (ip : PyVal) → (deviceType username password : String) → List String →
    Except PyErr String
  publish : Except PyErr Unit

inductive SwitchEvent
  | executed (ip : PyVal) (deviceType : String) (commands : List String)
  | portBounced (networkDeviceId portName : PyVal) (output : String)
  | failed (ip portName : PyVal)

section Bounce

variable (env : SwitchEnv)

/-- `VENDOR_DEVICE_TYPE.get(vendor, "cisco_ios")`. -/
def deviceType (vendor : String) : String :=
  Dict.getD [
    ("cisco", "cisco_ios"),
    ("cisco_xe", "cisco_xe"),
    ("cisco_nxos", "cisco_nxos"),
    ("aruba", "aruba_osswitch"),
    ("aruba_cx", "aruba_oscx"),
    ("juniper", "juniper_junos"),
    ("fortinet", "fortinet"),
    ("hp_procurve", "hp_procurve"),
    ("dell", "dell_force10"),
    ("extreme", "extreme_exos")] vendor "cisco_ios"

/-- `_get_bounce_commands`; the Cisco, Aruba and default branches give the same commands. -/
def bounceCommands (vendor portName : String) : List String :=
  if vendor = "juniper" then [
    "configure",
    "set interfaces " ++ portName ++ " disable",
    "commit",
    "delete interfaces " ++ portName ++ " disable",
    "commit"]
  else [
    "configure terminal",
    "interface " ++ portName,
    "shutdown",
    "no shutdown",
    "end"]

/-- `_get_ssh_credentials`. -/
def sshCredentials (networkDeviceId : PyVal) : Except PyErr (String × String) := do
  match ← env.sshRow networkDeviceId with
  | none => .error .valueError
  | some row =>
    match row.username with
    | none => .error .valueError
    | some username =>
      if username = "" then .error .valueError
      else
        let password ← env.decryptSecret row.passwordEncrypted
        return (username, password.getD "")

/-- The body of the `try`. -/
def bounce (data : Dict PyVal) (ip portName : PyVal) (vendor : String) :
    Traced SwitchEvent PyErr Unit := do
  let networkDeviceId ← Traced.lift (item data "network_device_id")
  let (username, password) ← Traced.lift (sshCredentials env networkDeviceId)
  let commands := bounceCommands vendor (portName.toStr env.builtins)
  let output ← Traced.lift (env.connect ip (deviceType vendor) username password commands)
  Traced.emit (.executed ip (deviceType vendor) commands)
  Traced.lift env.publish
  Traced.emit (.portBounced networkDeviceId portName output)

/-- `handle_bounce_port`. -/
def handleBouncePort (data : Dict PyVal) : Traced SwitchEvent PyErr Unit := do
  let ip ← Traced.lift (item data "ip_address")
  let portName ← Traced.lift (item data "port_name")
  match data.getD "vendor" (.str "cisco") with
  | .str vendor =>
    Traced.attempt (bounce env data ip portName (env.builtins.lower vendor))
      fun _ => Traced.emit (.failed ip portName)
  | _ => Traced.raise .attributeError

theorem handleBouncePort_of_missing {data : Dict PyVal} (h : data.get? "ip_address" = none) :
    handleBouncePort env data = ⟨[], .error .keyError⟩ := by
  unfold handleBouncePort item
  rw [h]
  rfl

end Bounce

end OpenRadiusWeb.Switch
