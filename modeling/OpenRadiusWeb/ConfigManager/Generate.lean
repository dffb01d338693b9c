import OpenRadiusWeb.Lib.Text
import OpenRadiusWeb.Lib.Paths
import OpenRadiusWeb.ConfigManager.Rows

/-! # Generating the configuration

`generate_all_configs` turns the rows of one database state into the texts of the
managed files. The template engine, the secret vault and Unicode case folding are
parameters of the manager, and so is whether the server has `rlm_python3`.
-/

namespace OpenRadiusWeb.ConfigManager

open Paths

/-! ## The variables of the templates -/

structure EapVars where
  generatedAt : String
  caCertPath : String
  caPath : String
  serverCertPath : String
  serverKeyPath : String
  dhFile : Option String
  defaultEapType : Option String
  timerExpire : Nat
  maxSessions : Nat
  tlsMinVersion : Option String
  tlsMaxVersion : Option String
  cipherList : String
  cacheLifetime : Nat
  cacheMaxEntries : Nat

structure RenderedServer where
  moduleName : String
  host : String
  port : Option Int
  bindDn : String
  bindPassword : String
  baseDn : String
  userSearchBase : String
  userSearchFilter : Option String
  groupSearchBase : String
  groupSearchFilter : Option String
  groupMembershipAttr : Option String
  useTls : Option Bool
  useStarttls : Option Bool
  tlsCaCertPath : Option String
  tlsRequireCert : String
  connectTimeoutSeconds : Option Int
  searchTimeoutSeconds : Option Int
  idleTimeoutSeconds : Option Int

structure LdapModule where
  name : String
  moduleName : String

structure SiteVars where
  generatedAt : String
  hasPython : Bool
  ldapModules : List LdapModule
  realmsEnabled : Bool

/-- The templates as functions of their variables; `none` where rendering raises. -/
structure Templates where
  eap : EapVars → Option String
  ldap : String → List RenderedServer → Option String
  siteDefault : (hasEap : Bool) → SiteVars → Option String
  siteInnerTunnel : SiteVars → Option String
  python : (generatedAt pythonPath : String) → Option String

/-- A manager: its directories and what it takes from outside this repository. -/
structure Manager where
  outputDir : String
  certDir : String
  templates : Templates
  rlmPython3Available : Bool
  /-- `decrypt_secret` on a non-empty value. -/
  decrypt : String → Except Exc String
  /-- `str.lower`. -/
  lower : String → String
  /-- The hexadecimal SHA-256 digest, taken to be injective. -/
  sha256 : ByteArray ↪ String

/-- `value or ""` for a nullable text. -/
def orEmpty (value : Option String) : String := value.getD ""

/-- `value or default` for a nullable text. -/
def orElse (value : Option String) (default : String) : String :=
  if orEmpty value = "" then default else orEmpty value

/-- How an f-string prints a nullable text. -/
def strOrNone (value : Option String) : String := value.getD "None"

/-- How an f-string prints a nullable integer. -/
def intOrNone (value : Option Int) : String := (value.map toString).getD "None"

namespace Manager

variable (m : Manager) (r : Reads)

/-- `decrypt_secret`. -/
def decryptSecret : Option String → Except Exc (Option String)
  | none => .ok none
  | some ciphertext =>
    if ciphertext = "" then .ok (some "") else (m.decrypt ciphertext).map some

/-- The name of a server or realm inside the generated configuration. -/
def safeName (name : String) : String :=
  Text.replaceChar '.' "_" (Text.replaceChar '-' "_" (Text.replaceChar ' ' "_" (m.lower name)))

/-! ## The modules -/

def generateEapConfig : Except Exc String := do
  let certs ← r.loadActiveCertificates .eapCertificates
  let radiusSettings ← r.loadSystemSettings .eapSettings "radius"
  let caCert := certs.find? fun c => c.certType = "ca"
  let serverCert := certs.find? fun c => c.certType = "server"
  let hasDh := orEmpty (serverCert.bind Certificate.dhParamsPem) ≠ "" ∨
    orEmpty (caCert.bind Certificate.dhParamsPem) ≠ ""
  let vars : EapVars :=
    { generatedAt := r.now
      caCertPath := join m.certDir "ca.pem"
      caPath := join m.certDir "trusted-cas/"
      serverCertPath := join m.certDir "server.pem"
      serverKeyPath := join m.certDir "server.key"
      dhFile := if hasDh then some (join m.certDir "dh.pem") else none
      defaultEapType := radiusSettings.getD "default_eap_type" (some "peap")
      timerExpire := 60
      maxSessions := 4096
      tlsMinVersion := radiusSettings.getD "tls_min_version" (some "1.2")
      tlsMaxVersion := radiusSettings.getD "tls_max_version" (some "1.2")
      cipherList := "DEFAULT"
      cacheLifetime := 24
      cacheMaxEntries := 255 }
  return (m.templates.eap vars).getD ""

def renderedServer (server : LdapServer) : Except Exc RenderedServer := do
  let bindPassword ← m.decryptSecret (some server.bindPasswordEncrypted)
  return {
    moduleName := "ldap_" ++ m.safeName server.name
    host := server.host
    port := server.port
    bindDn := server.bindDn
    bindPassword := orEmpty bindPassword
    baseDn := server.baseDn
    userSearchBase := orElse server.userSearchBase server.baseDn
    userSearchFilter := server.userSearchFilter
    groupSearchBase := orElse server.groupSearchBase server.baseDn
    groupSearchFilter := server.groupSearchFilter
    groupMembershipAttr := server.groupMembershipAttr
    useTls := server.useTls
    useStarttls := server.useStarttls
    tlsCaCertPath :=
      if orEmpty server.tlsCaCert = "" then none
      else some (join (join m.certDir "ldap") (m.safeName server.name ++ "_ca.pem"))
    tlsRequireCert := server.tlsRequireCert.getD "demand"
    connectTimeoutSeconds := server.connectTimeoutSeconds
    searchTimeoutSeconds := server.searchTimeoutSeconds
    idleTimeoutSeconds := server.idleTimeoutSeconds }

/-- The files and the module names declared inside them. -/
def generateLdapConfigs : Except Exc (List (String × String) × List String) := do
  let servers ← r.loadLdapServers .ldapServers
  let renderedServers ← servers.mapM m.renderedServer
  match servers, m.templates.ldap r.now renderedServers with
  | [], _ => return ([], [])
  | _ :: _, none => return ([], [])
  | _ :: _, some content =>
    return ([("ldap_orw", content)], renderedServers.map RenderedServer.moduleName)

def generatePythonConfig : String :=
  (m.templates.python r.now "/etc/freeradius/mods-config/python").getD ""

/-! ## `proxy.conf` and `clients.conf` -/

/-- The home server and its pool, for a realm of type `proxy`. -/
def homeServerLines (realm : Realm) : Except Exc (List String) := do
  let safeName := m.safeName realm.name
  let secret ← m.decryptSecret realm.proxySecretEncrypted
  return [
    "home_server hs_" ++ safeName ++ " \x7b",
    "    type = auth+acct",
    "    ipaddr = " ++ strOrNone realm.proxyHost,
    "    port = " ++ intOrNone realm.proxyPort,
    "    secret = " ++ orElse secret "changeme",
    "    response_window = 20",
    "    zombie_period = " ++ intOrNone realm.proxyDeadTimeSeconds,
    "    revive_interval = " ++ intOrNone realm.proxyDeadTimeSeconds,
    "\x7d",
    "",
    "home_server_pool pool_" ++ safeName ++ " \x7b",
    "    type = fail-over",
    "    home_server = hs_" ++ safeName,
    "\x7d",
    ""]

def stripLine (realm : Realm) : String :=
  if realm.stripUsername = some true then "    strip" else "    nostrip"

def realmLines (realm : Realm) : List String :=
  if realm.realmType = "proxy" then
    ["realm " ++ realm.name ++ " \x7b", "    pool = pool_" ++ m.safeName realm.name,
      stripLine realm, "\x7d", ""]
  else if realm.realmType = "local" then
    ["realm " ++ realm.name ++ " \x7b", stripLine realm, "\x7d", ""]
  else if realm.realmType = "reject" then
    ["realm " ++ realm.name ++ " \x7b", "    auth_pool = reject", "\x7d", ""]
  else []

def defaultRealmLines : List String := [
  "# Default realm - handle locally",
  "realm DEFAULT \x7b",
  "    strip",
  "\x7d",
  "",
  "realm NULL \x7b",
  "    strip",
  "\x7d",
  ""]

def proxyHeader : List String := [
  "# OpenRadiusWeb Generated Configuration - DO NOT EDIT MANUALLY",
  "#",
  "# Proxy configuration",
  "# Template: proxy.conf (inline)",
  "",
  "proxy server \x7b",
  "    default_fallback = no",
  "\x7d",
  ""]

def generateProxyConfig : Except Exc String := do
  let realms ← r.loadRealms .proxyRealms
  let homeServers ← (realms.filter fun realm => realm.realmType = "proxy").mapM m.homeServerLines
  let hasDefault := realms.any fun realm =>
    realm.name = "DEFAULT" || realm.name = "default" || realm.name = "*"
  return "\n".intercalate (proxyHeader ++ homeServers.flatten ++ realms.flatMap m.realmLines ++
    if hasDefault then [] else defaultRealmLines)

def clientsHeader : List String := [
  "# OpenRadiusWeb Generated Configuration - DO NOT EDIT MANUALLY",
  "#",
  "# RADIUS client (NAS) configuration",
  "",
  "client localhost \x7b",
  "    ipaddr = 127.0.0.1",
  "    secret = testing123",
  "    shortname = localhost",
  "    nas_type = other",
  "\x7d",
  "",
  "client localhost_ipv6 \x7b",
  "    ipv6addr = ::1",
  "    secret = testing123",
  "    shortname = localhost_v6",
  "\x7d",
  ""]

def clientLines (client : NasClient) : Except Exc (List String) := do
  let shortname := orElse client.shortname (Text.take 31 client.name)
  let secret ← m.decryptSecret (some client.secretEncrypted)
  let description := orEmpty client.description
  return [
    "client " ++ shortname ++ " \x7b",
    "    ipaddr = " ++ client.ipAddress,
    "    secret = " ++ orElse secret "changeme",
    "    shortname = " ++ shortname,
    "    nas_type = " ++ strOrNone client.nasType] ++
    (if orEmpty client.virtualServer = "" then []
      else ["    virtual_server = " ++ orEmpty client.virtualServer]) ++
    (if description = "" then []
      else ["    # " ++ Text.strip (Text.replaceChar '\n' " " description)]) ++
    ["\x7d", ""]

def generateClientsConfig : Except Exc String := do
  let clients ← r.loadNasClients .nasClients
  let blocks ← clients.mapM m.clientLines
  return "\n".intercalate (clientsHeader ++ blocks.flatten)

/-! ## The sites and the whole -/

/-- `m.removeprefix("ldap_")` and the module name. -/
def ldapModule (moduleName : String) : LdapModule where
  name := String.ofList (if "ldap_".toList <+: moduleName.toList then moduleName.toList.drop 5
    else moduleName.toList)
  moduleName := moduleName

def siteVars (hasPython : Bool) (ldapModules : List String) (realmsEnabled : Bool) : SiteVars where
  generatedAt := r.now
  hasPython := hasPython
  ldapModules := ldapModules.map ldapModule
  realmsEnabled := realmsEnabled

/-- `if content: configs[filename] = content`. -/
def addConfig (configs : Dict String) (filename content : String) : Dict String :=
  if content = "" then configs else configs.set filename content

def generateAllConfigs : Except Exc (Dict String) := do
  let eapContent ← m.generateEapConfig r
  let hasEap := eapContent ≠ ""
  let configs := addConfig [] "mods-available/eap" eapContent
  let (ldapFiles, ldapModuleNames) ← m.generateLdapConfigs r
  let configs := ldapFiles.foldl (fun d file => d.set ("mods-available/" ++ file.1) file.2) configs
  let pythonContent := if m.rlmPython3Available then m.generatePythonConfig r else ""
  let hasPython := pythonContent ≠ ""
  let configs := addConfig configs "mods-available/python" pythonContent
  let realms ← r.loadRealms .realms
  let vars := siteVars r hasPython ldapModuleNames (!realms.isEmpty)
  let configs := addConfig configs "proxy.conf" (← m.generateProxyConfig r)
  let configs := addConfig configs "clients.conf" (← m.generateClientsConfig r)
  let configs := addConfig configs "sites-available/default"
    ((m.templates.siteDefault hasEap vars).getD "")
  return if hasEap then
      addConfig configs "sites-available/inner-tunnel" ((m.templates.siteInnerTunnel vars).getD "")
    else configs

end Manager

end OpenRadiusWeb.ConfigManager
