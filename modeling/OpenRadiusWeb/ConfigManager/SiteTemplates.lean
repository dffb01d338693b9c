import OpenRadiusWeb.ConfigManager.ProxyConf

/-! # The templates of the sites and their modules

`site_default.j2`, `site_inner_tunnel.j2`, `eap.j2` and `python.j2`, line by line. A variable that
`generate_all_configs` does not pass is undefined there, and the lines that ask for it are left out.
-/

namespace OpenRadiusWeb.BareTexts

open ConfigManager Statements

/-! ## Pieces of the templates -/

def note (n : Nat) (text : String) : Passage := .comment n text.toList

/-- Comment lines between two empty ones. -/
def boxed (n : Nat) (texts : List String) : Passage :=
  .all (note n "" :: (texts.map (note n) ++ [note n ""]))

def sets (n : Nat) (key value : String) : Passage := .item n [key.toList, ['='], value.toList]

def assigns (n : Nat) (attr value : String) : Passage := .item n [attr.toList, ":=".toList, value.toList]

def merges (n : Nat) (attr value : String) : Passage := .item n [attr.toList, "+=".toList, value.toList]

/-- The name of a module on a line of its own. -/
def invokes (n : Nat) (name : String) : Passage := .item n [name.toList]

def encl (n : Nat) (heading : List String) (parts : List Passage) : Passage :=
  .enclosed n (heading.map String.toList) parts

/-- The lines of an `if` without an `else`. -/
def onlyIf (condition : Bool) (parts : List Passage) : Passage := .all (if condition then parts else [])

/-- The lines of a `for`. -/
def forEach {α : Type} (xs : List α) (parts : α → List Passage) : Passage :=
  .all (xs.map fun x => .all (parts x))

/-- A file of one section, after a few lines of comment. -/
def page (titles : List String) (heading : List String) (parts : List Passage) : Passage :=
  .all (titles.map (note 0) ++ [.empty, encl 0 heading parts, .empty])

def betweenQuotes (value : String) : String := "\"" ++ value ++ "\""

section Sites

variable (hasEap : Bool) (vars : SiteVars)

/-! ## `site_default.j2` -/

def listenLines (kind : String) : Passage :=
  encl 4 ["listen"] [sets 8 "type" kind, sets 8 "ipaddr" "*", sets 8 "port" "0",
    encl 8 ["limit"] [sets 12 "max_connections" "16", sets 12 "lifetime" "0",
      sets 12 "idle_timeout" "30"]]

/-- The password of a user that the server knows is checked by a bind. -/
def bindIfPassword (ldapMod : LdapModule) : List Passage :=
  [invokes 8 ldapMod.moduleName,
    encl 8 ["if", "((ok", "||", "updated)", "&&", "User-Password)"] [
      encl 12 ["update", "control"] [assigns 16 "&Auth-Type" ldapMod.moduleName]]]

def bindSection (ldapMod : LdapModule) : List Passage :=
  [boxed 8 [" LDAP bind authentication: " ++ ldapMod.name],
    encl 8 ["Auth-Type", ldapMod.moduleName] [invokes 12 ldapMod.moduleName], .empty]

def copiesState (n : Nat) : Passage := encl n ["update"] [merges (n + 4) "&reply:" "&session-state:"]

def marksResult (n : Nat) (result : String) : Passage :=
  encl n ["update", "request"] [assigns (n + 4) "&OpenRadiusWeb-Result" (betweenQuotes result)]

def defaultAuthorize : Passage :=
  encl 4 ["authorize"] [
    onlyIf vars.realmsEnabled [boxed 8 [" Realm processing - split User-Name into user and realm"],
      invokes 8 "filter_username", invokes 8 "suffix"],
    .empty, boxed 8 [" Standard request preprocessing"], invokes 8 "preprocess", .empty,
    note 8 "", note 8 " Huntgroup matching (if configured)", note 8 "", note 8 " chap",
    note 8 " mschap", .empty,
    onlyIf hasEap [boxed 8 [" EAP module - sets up EAP-Message handling",
        " Must come before LDAP so EAP state is initialized"],
      encl 8 ["eap"] [sets 12 "ok" "return"]],
    .empty,
    forEach vars.ldapModules (fun ldapMod =>
      boxed 8 [" LDAP authorization: " ++ ldapMod.name, "",
        " See site_inner_tunnel.j2 for the rationale: LDAP looks the",
        " user up; if the request carries a plaintext password we tell",
        " the authenticate section to verify it via LDAP bind. Same",
        " block here for direct (non-EAP) PAP at the outer site."] :: bindIfPassword ldapMod),
    .empty,
    onlyIf vars.hasPython [boxed 8 [" OpenRadiusWeb Python authorization module",
        " Performs custom policy checks, device profiling, etc."],
      invokes 8 "orw"],
    .empty, boxed 8 [" Session validity checks"], invokes 8 "expiration",
    invokes 8 "logintime", .empty,
    boxed 8 [" PAP module - needed if any backend returns Cleartext-Password"], invokes 8 "pap"]

def defaultAuthenticate : Passage :=
  encl 4 ["authenticate"] [
    onlyIf hasEap [boxed 8 [" EAP authentication (PEAP, EAP-TLS, EAP-TTLS)",
        " Handles the outer EAP negotiation"],
      encl 8 ["Auth-Type", "EAP"] [invokes 12 "eap"]],
    .empty, forEach vars.ldapModules bindSection,
    boxed 8 [" PAP - needed for LDAP bind auth fallback"],
    encl 8 ["Auth-Type", "PAP"] [invokes 12 "pap"], .empty,
    boxed 8 [" MS-CHAP authentication (for NTLM pass-through)"],
    encl 8 ["Auth-Type", "MS-CHAP"] [invokes 12 "mschap"]]

def defaultReject : Passage :=
  encl 8 ["Post-Auth-Type", "REJECT"] [
    onlyIf vars.hasPython [boxed 12 [" OpenRadiusWeb rejection handling.",
        " Tag this branch as reject so orw logs result=reject in",
        " radius_auth_log. Without this marker, rlm_python3 has no",
        " way to tell success vs reject (Post-Auth-Type isn't passed",
        " to Python's request tuple)."],
      marksResult 12 "reject", invokes 12 "orw"],
    .empty, boxed 12 [" Insert short delay to throttle brute-force attacks"],
    invokes 12 "attr_filter.access_reject", .empty,
    boxed 12 [" Update reply attributes even on reject"], copiesState 12]

def defaultPostAuth : Passage :=
  encl 4 ["post-auth"] [
    boxed 8 [" Update reply attributes from control attributes"], copiesState 8, .empty,
    onlyIf vars.hasPython [boxed 8 [" OpenRadiusWeb post-auth processing",
        " Assigns VLANs, ACLs, and logs authentication results.",
        " Tag the request as the success branch so orw logs result=success",
        " in radius_auth_log. (Post-Auth-Type isn't visible to rlm_python3,",
        " see dictionary.openradiusweb for the full reason.)"],
      marksResult 8 "success", invokes 8 "orw"],
    .empty, boxed 8 [" Handle authentication rejections"], defaultReject vars]

def defaultProxy : Passage :=
  onlyIf vars.realmsEnabled [encl 4 ["pre-proxy"] [], .empty, boxed 4 [" Post-proxy processing"],
    encl 4 ["post-proxy"] [onlyIf hasEap [invokes 8 "eap"]]]

def defaultAccounting : Passage :=
  encl 4 ["accounting"] [
    boxed 8 [" OpenRadiusWeb accounting handler", " Tracks session state, gathers endpoint telemetry"],
    onlyIf vars.hasPython [invokes 8 "orw"],
    .empty, boxed 8 [" Write accounting detail files for audit trail"], invokes 8 "detail",
    .empty, note 8 "", note 8 " Standard Unix accounting (utmp/wtmp)", note 8 "", note 8 " unix",
    .empty, note 8 "", note 8 " Update session database", note 8 "", note 8 " radutmp",
    .empty,
    forEach vars.ldapModules (fun ldapMod =>
      [boxed 8 [" LDAP accounting: " ++ ldapMod.name], invokes 8 ldapMod.moduleName]),
    .empty, invokes 8 "attr_filter.accounting_response"]

def siteDefaultLines : Passage :=
  page [" OpenRadiusWeb Generated Configuration - DO NOT EDIT MANUALLY", "",
      " Main virtual server (sites-available/default)", " Template: site_default.j2", "",
      " This is the outer authentication virtual server that handles",
      " all incoming RADIUS authentication and accounting requests."] ["server", "default"] [
    .empty, boxed 4 [" Authentication listener - binds to all interfaces"],
    listenLines "auth", .empty,
    boxed 4 [" Accounting listener - binds to all interfaces"], listenLines "acct", .empty,
    boxed 4 [" Authorization / policy evaluation",
      " Determines how the user should be authenticated."],
    defaultAuthorize hasEap vars, .empty,
    boxed 4 [" Authentication methods", " Actually verifies the user's credentials."],
    defaultAuthenticate hasEap vars, .empty,
    boxed 4 [" Post-authentication processing", " Runs after successful authentication."],
    defaultPostAuth vars, .empty,
    boxed 4 [" Pre-proxy processing (if proxying is configured)"],
    defaultProxy hasEap vars, .empty,
    boxed 4 [" Accounting processing",
      " Handles Start, Interim-Update, and Stop accounting packets."],
    defaultAccounting vars]

/-! ## `site_inner_tunnel.j2` -/

def innerAuthorize : Passage :=
  encl 4 ["authorize"] [
    onlyIf vars.realmsEnabled [boxed 8 [" Realm processing for inner identity",
        " The inner User-Name may differ from the outer identity"],
      invokes 8 "filter_username", invokes 8 "suffix"],
    .empty, boxed 8 [" Update the inner request with outer tunnel attributes"],
    encl 8 ["update", "control"] [assigns 12 "&Proxy-To-Realm" "LOCAL"], .empty,
    boxed 8 [" EAP module - handles inner EAP methods (MSCHAPv2, GTC, etc.)"],
    encl 8 ["eap"] [sets 12 "ok" "return"], .empty,
    forEach vars.ldapModules (fun ldapMod =>
      boxed 8 [" LDAP authorization: " ++ ldapMod.name, "",
        " If LDAP found the user AND the request carries a plaintext",
        " password (User-Password — present in TTLS+PAP and PEAP+GTC),",
        " tell the authenticate section to verify the password by",
        " binding to the LDAP server as the user. Without this, the",
        " request reaches authenticate without an Auth-Type set and",
        " gets rejected with \"No Auth-Type found\" — even though LDAP",
        " successfully looked the user up."] :: bindIfPassword ldapMod),
    .empty, boxed 8 [" MS-CHAP module - needed for PEAP-MSCHAPv2"], invokes 8 "mschap",
    .empty, boxed 8 [" PAP module - needed for TTLS-PAP and GTC"], invokes 8 "pap", .empty,
    onlyIf vars.hasPython [boxed 8 [" OpenRadiusWeb inner tunnel authorization"], invokes 8 "orw"]]

def innerAuthenticate : Passage :=
  encl 4 ["authenticate"] [
    boxed 8 [" Inner EAP (MSCHAPv2 within PEAP, etc.)"],
    encl 8 ["Auth-Type", "EAP"] [invokes 12 "eap"], .empty,
    boxed 8 [" MS-CHAP v2 authentication", " Primary method for PEAP-MSCHAPv2"],
    encl 8 ["Auth-Type", "MS-CHAP"] [invokes 12 "mschap"], .empty,
    boxed 8 [" PAP authentication", " Used for TTLS-PAP and EAP-GTC"],
    encl 8 ["Auth-Type", "PAP"] [invokes 12 "pap"], .empty,
    forEach vars.ldapModules bindSection]

def innerReject : Passage :=
  encl 8 ["Post-Auth-Type", "REJECT"] [
    onlyIf vars.hasPython [boxed 12 [" OpenRadiusWeb inner rejection handling.",
        " Tag as reject so orw logs result=reject correctly."],
      marksResult 12 "reject", invokes 12 "orw"],
    .empty, invokes 12 "attr_filter.access_reject", .empty, copiesState 12]

def innerPostAuth : Passage :=
  encl 4 ["post-auth"] [
    onlyIf vars.hasPython [boxed 8 [" OpenRadiusWeb inner tunnel post-auth.",
        " Tag as success so orw logs result=success in radius_auth_log.",
        " See dictionary.openradiusweb for why a marker is needed (short",
        " version: Post-Auth-Type isn't exposed to rlm_python3)."],
      marksResult 8 "success", invokes 8 "orw"],
    .empty,
    boxed 8 [" Copy reply attributes to outer session state",
      " so they are available after the tunnel closes"], copiesState 8, .empty,
    boxed 8 [" Handle inner tunnel rejections"], innerReject vars]

def innerProxy : Passage :=
  onlyIf vars.realmsEnabled [boxed 4 [" Pre-proxy (inner tunnel)"], encl 4 ["pre-proxy"] [], .empty,
    boxed 4 [" Post-proxy (inner tunnel)"], encl 4 ["post-proxy"] [invokes 8 "eap"]]

def siteInnerTunnelLines : Passage :=
  page [" OpenRadiusWeb Generated Configuration - DO NOT EDIT MANUALLY", "",
      " Inner tunnel virtual server for PEAP/TTLS Phase 2", " Template: site_inner_tunnel.j2", "",
      " This virtual server handles the inner (decrypted) authentication",
      " within PEAP and EAP-TTLS tunnels. The outer EAP negotiation occurs",
      " in the \"default\" server; once the TLS tunnel is established, the",
      " inner credentials are forwarded here for actual identity verification."]
    ["server", "inner-tunnel"] [
    .empty, boxed 4 [" Inner tunnel listener - only accepts requests from the",
      " outer EAP module, not from the network"],
    encl 4 ["listen"] [sets 8 "ipaddr" "127.0.0.1", sets 8 "port" "18120",
      sets 8 "type" "auth"], .empty,
    boxed 4 [" Authorization / policy evaluation (inner tunnel)"], innerAuthorize vars, .empty,
    boxed 4 [" Authentication methods (inner tunnel)"], innerAuthenticate vars, .empty,
    boxed 4 [" Post-authentication processing (inner tunnel)"], innerPostAuth vars, .empty,
    innerProxy vars]

end Sites

/-! ## `eap.j2` and `python.j2` -/

def tlsConfigLines (vars : EapVars) : Passage :=
  encl 4 ["tls-config", "tls-common"] [
    .item 8 ["private_key_password".toList, ['=']], sets 8 "private_key_file" vars.serverKeyPath,
    sets 8 "certificate_file" vars.serverCertPath, sets 8 "ca_file" vars.caCertPath,
    sets 8 "ca_path" vars.caPath, .empty,
    forEach (vars.dhFile.filter fun path => path ≠ "").toList fun path => [sets 8 "dh_file" path],
    .empty, sets 8 "auto_chain" "yes", .empty, boxed 8 [" TLS version constraints"],
    sets 8 "tls_min_version" (betweenQuotes (strOrNone vars.tlsMinVersion)),
    sets 8 "tls_max_version" (betweenQuotes (strOrNone vars.tlsMaxVersion)), .empty,
    boxed 8 [" Cipher list"], sets 8 "cipher_list" (betweenQuotes vars.cipherList), .empty,
    boxed 8 [" Elliptic curve selection"], sets 8 "ecdh_curve" "\"prime256v1\"", .empty,
    sets 8 "check_crl" "no", .empty, .empty, boxed 8 [" TLS session cache"],
    encl 8 ["cache"] [sets 12 "enable" "yes", sets 12 "lifetime" (toString vars.cacheLifetime),
      .item 12 ["name".toList, ['='], "\"OpenRadiusWeb".toList, "TLS".toList, "Session".toList,
        "Cache\"".toList],
      sets 12 "max_entries" (toString vars.cacheMaxEntries)]]

/-- The section of a tunnelled method. -/
def tunnelLines (method : String) : Passage :=
  encl 4 [method] [sets 8 "tls" "tls-common", sets 8 "default_eap_type" "mschapv2",
    sets 8 "copy_request_to_tunnel" "yes", sets 8 "use_tunneled_reply" "yes",
    sets 8 "virtual_server" "\"inner-tunnel\""]

def eapLines (vars : EapVars) : Passage :=
  page [" OpenRadiusWeb Generated Configuration - DO NOT EDIT MANUALLY", "",
      " EAP module configuration", " Template: eap.j2"] ["eap"] [
    sets 4 "default_eap_type" (strOrNone vars.defaultEapType),
    sets 4 "timer_expire" (toString vars.timerExpire), sets 4 "ignore_unknown_eap_types" "no",
    sets 4 "cisco_accounting_username_bug" "no",
    sets 4 "max_sessions" (toString vars.maxSessions), .empty,
    boxed 4 [" TLS common configuration - shared by EAP-TLS, PEAP, TTLS"], tlsConfigLines vars,
    .empty, boxed 4 [" EAP-TLS authentication (certificate-based)"],
    encl 4 ["tls"] [sets 8 "tls" "tls-common", sets 8 "virtual_server" "check-eap-tls"],
    .empty, boxed 4 [" PEAP authentication (Protected EAP)"], tunnelLines "peap", .empty,
    boxed 4 [" EAP-TTLS authentication (Tunneled TLS)"], tunnelLines "ttls", .empty,
    boxed 4 [" EAP-MSCHAPv2 (inner method for PEAP/TTLS)"], encl 4 ["mschapv2"] []]

def pythonLines (pythonPath : String) : Passage :=
  page [" OpenRadiusWeb Generated Configuration - DO NOT EDIT MANUALLY", "",
      " Python module configuration (mods-available/python)", " Template: python.j2", "",
      " Configures rlm_python3 to load the OpenRadiusWeb (orw) RADIUS module.",
      " The orw module handles custom authorization, post-auth, and accounting",
      " logic via Python callbacks. Authentication itself is owned by rlm_ldap", " + eap, not orw."]
    ["python3", "orw"] [
    sets 4 "module" "orw", .empty, sets 4 "python_path" (betweenQuotes pythonPath),
    .empty, .empty,
    boxed 4 [" Module function mappings",
      " Each maps a FreeRADIUS processing section to a Python function"], .empty,
    sets 4 "mod_instantiate" "\"$\x7b.module\x7d\"", sets 4 "func_instantiate" "instantiate",
    .empty,
    sets 4 "mod_authorize" "\"$\x7b.module\x7d\"", sets 4 "func_authorize" "authorize",
    .empty, note 4 " No mod_authenticate / func_authenticate: orw doesn't verify",
    note 4 " credentials itself (rlm_ldap + eap own that path). The site",
    note 4 " templates only call `orw` from authorize / post-auth / accounting.",
    note 4 " rlm_python3 tries to LOAD every declared func at instantiation,",
    note 4 " so declaring `func_authenticate = authenticate` here would crash",
    note 4 " the module with `module 'orw' has no attribute 'authenticate'`",
    note 4 " -- which is exactly the bug that surfaced once #49 made",
    note 4 " _rlm_python3_available() actually return True.", .empty,
    sets 4 "mod_post_auth" "\"$\x7b.module\x7d\"", sets 4 "func_post_auth" "post_auth",
    .empty,
    sets 4 "mod_accounting" "\"$\x7b.module\x7d\"", sets 4 "func_accounting" "accounting",
    .empty,
    sets 4 "mod_detach" "\"$\x7b.module\x7d\"", sets 4 "func_detach" "detach", .empty]

def textOf (p : Passage) : String := String.ofList (joined p.lines)

end OpenRadiusWeb.BareTexts
