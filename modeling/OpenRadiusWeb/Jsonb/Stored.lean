import OpenRadiusWeb.Coa.Manager
import OpenRadiusWeb.Policy.Engine
import OpenRadiusWeb.Jsonb.Replaced
import OpenRadiusWeb.Jsonb.Fields

/-! # The texts that are stored as JSONB

The audit of a CoA request and the enrichment of a log entry store the text of a dictionary with its
quotes replaced, an evaluation stores the text of its actions as it is, and a discovery event writes
an object around its values.
-/

namespace OpenRadiusWeb.Jsonb

open OpenRadiusWeb.Policy
open OpenRadiusWeb.Coa (CoAResult FoundSession auditRow optText optNumber)

/-- What `_enrich_radius_log` adds to the attributes of a log entry. -/
def enrichedAttributes (enrichment : Dict PyVal) : Dict PyVal := [
  ("ad_event_id", enrichment.getD "ad_event_id" .none),
  ("ad_dc_name", enrichment.getD "ad_dc_name" .none),
  ("ad_workstation", enrichment.getD "ad_workstation" .none),
  ("ad_logon_type", enrichment.getD "ad_logon_type" .none)]

def enrichmentText (B : Builtins) (enrichment : Dict PyVal) : String :=
  Text.replaceChar '\'' "\"" ((PyVal.dict (enrichedAttributes enrichment)).toStr B)

/-- The details that `handle_device_discovered` logs. -/
def discoveryDetails (B : Builtins) (mac : String) (ip source : PyVal) : String :=
  "\x7b\"mac\": \"" ++ mac ++ "\", \"ip\": \"" ++ ip.toStr B ++ "\", \"source\": \"" ++
    source.toStr B ++ "\"\x7d"

/-- What the statements before it bind to an address or a text column. -/
def Bindable : PyVal → Prop
  | .none | .bool _ | .int _ | .str _ => True
  | _ => False

/-! ## The details of a discovery -/

/-- A text put between double quotes as it is. -/
def rawText (s : List Char) : List Char := '"' :: s ++ ['"']

theorem rawText_quoting :
    Quoting rawText (fun s => ∀ c ∈ s, Json.Plain c) (fun s => ∀ c ∈ s, Json.Plain c) where
  reads {s r t u} hs h := by
    generalize hText : rawText s ++ t = text at h
    cases h with
    | mk h =>
      rw [rawText, List.cons_append, List.cons_append, List.append_assoc] at hText
      rw [← (List.cons.inj hText).2] at h
      have hPlain : ¬∃ c ∈ s, ¬Json.Plain c := fun ⟨c, hc, hNot⟩ => hNot (hs c hc)
      obtain ⟨rfl, rfl, -⟩ | ⟨hNot, -⟩ | ⟨hNot, -⟩ := h.around
      · exact ⟨hs, rfl, rfl⟩
      · exact absurd hNot hPlain
      · exact absurd hNot hPlain
  written t h := by
    rw [rawText, List.cons_append, List.cons_append, List.append_assoc]
    exact .mk (Json.Body.plain h)
  quote s := .inl ⟨_, rfl⟩

section Discovery

variable (I : Interpreter) (B : Builtins)

theorem plain_of_numeric {c : Char} (h : Json.isNumeric c = true) : Json.Plain c := by
  refine ⟨?_, ?_, ?_⟩
  · rintro rfl
    exact absurd h (by decide)
  · rintro rfl
    exact absurd h (by decide)
  · by_contra hControl
    have hNone : ∀ n < 0x20, Json.isNumeric (Char.ofNat n) = false := by decide
    have hNot := hNone c.toNat (Nat.lt_of_not_le hControl)
    rw [Char.ofNat_toNat, h] at hNot
    cases hNot

theorem fits_of_denotes {v : PyVal} (hv : Bindable v) {j : Json} (h : Denotes I v j) {key : List Char}
    (hKey : key ≠ [] ∧ ∀ c ∈ key, Json.Plain c ∧ Json.isBlank c = false ∧ c ≠ ',' ∧ c ≠ '}') :
    Field.Fits ⟨key, (v.toStr B).toList, j⟩ := by
  cases v with
  | none =>
    obtain rfl : j = .null := h
    have hText : PyVal.none.toStr B = "None" := rfl
    rw [hText]
    exact ⟨hKey, (by decide : "None".toList.length ≤ 4), .inr (by decide : ∀ c ∈ "None".toList, Json.Plain c)⟩
  | bool b =>
    obtain rfl : j = .bool b := h
    cases b with
    | true =>
      have hText : (PyVal.bool true).toStr B = "True" := rfl
      rw [hText]
      exact ⟨hKey, (by decide : "True".toList.length ≤ 4),
        .inr (by decide : ∀ c ∈ "True".toList, Json.Plain c)⟩
    | false =>
      have hText : (PyVal.bool false).toStr B = "False" := rfl
      rw [hText]
      exact ⟨hKey, (by decide : "False".toList.length ≤ 5),
        .inr (by decide : ∀ c ∈ "False".toList, Json.Plain c)⟩
  | int n =>
    obtain rfl : j = .int n := h
    exact ⟨hKey, Nat.le_refl _, .inr fun c hc => plain_of_numeric (Json.IntText.numeric (.inl rfl) c hc)⟩
  | str s =>
    obtain rfl : j = .str s.toList := h
    exact ⟨hKey, Nat.le_add_right _ 2, .inl rfl⟩
  | _ => exact hv.elim

theorem str_of_denotes {v : PyVal} {s : List Char} (h : Denotes I v (.str s)) :
    v = .str (String.ofList s) := by
  cases v with
  | str t =>
    rw [Denotes] at h
    cases h
    rw [String.ofList_toList]
  | float x =>
    obtain ⟨ds, hs, -⟩ := h
    cases hs
  | list xs =>
    obtain ⟨js, hs, -⟩ := h
    cases hs
  | dict items =>
    obtain ⟨ms, hs, -⟩ := h
    cases hs
  | obj cls text => exact h.elim
  | _ =>
    rw [Denotes] at h
    cases h

theorem each_of_str {v : PyVal} {s : List Char} (h : Denotes I v (.str s)) (hs : ∀ c ∈ s, Json.Plain c) :
    Each (fun s => ∀ c ∈ s, Json.Plain c) (fun _ => False) v := by
  rw [str_of_denotes I h]
  change ∀ c ∈ (String.ofList s).toList, Json.Plain c
  rwa [String.toList_ofList]

theorem str_of_each {v : PyVal} (hv : Bindable v)
    (h : Each (fun s => ∀ c ∈ s, Json.Plain c) (fun _ => False) v) :
    ∃ s, v = .str s ∧ ∀ c ∈ s.toList, Json.Plain c := by
  cases v with
  | str s => exact ⟨s, rfl, h⟩
  | list xs => exact hv.elim
  | dict items => exact hv.elim
  | _ => exact h.elim

variable (mac : String) (ip source : PyVal)

def macField : Field := ⟨"mac".toList, mac.toList, .str mac.toList⟩

/-- The fields behind the address, with the values that they should have. -/
def otherFields (j j' : Json) : List Field :=
  [⟨"ip".toList, (ip.toStr B).toList, j⟩, ⟨"source".toList, (source.toStr B).toList, j'⟩]

theorem toList_discoveryDetails (j j' : Json) : (discoveryDetails B mac ip source).toList =
    '{' :: (macField mac).write (Field.writeRest (otherFields B ip source j j')) := by
  simp [discoveryDetails, macField, otherFields, Field.write, Field.writeRest]

/-- What was discovered. -/
def discovery : PyVal := .dict [("mac", .str mac), ("ip", ip), ("source", source)]

/-- If the details are read as what was discovered, they are read as their three texts. -/
theorem fields_of_details (hIp : Bindable ip) (hSource : Bindable source) {j j' : Json}
    (hj : Denotes I ip j) (hj' : Denotes I source j') {ms : List (List Char × Json)}
    (hMac : Json.lookup ms "mac".toList = some (.str mac.toList))
    (hLookIp : Json.lookup ms "ip".toList = some j)
    (hLookSource : Json.lookup ms "source".toList = some j') {u : List Char}
    (h : Json.Reads .value (.obj ms) (discoveryDetails B mac ip source).toList u) :
    ∀ f ∈ macField mac :: otherFields B ip source j j',
      (∀ c ∈ f.text, Json.Plain c) ∧ Json.lookup ms f.key = some (.str f.text) := by
  rw [toList_discoveryDetails B mac ip source j j'] at h
  obtain ⟨hEmpty, hClose⟩ | ⟨ms', hSame, hMembers⟩ := h.of_brace
  · exact absurd (List.cons.inj hClose).1 (by decide)
  · cases hSame
    have hFits : ∀ f ∈ macField mac :: otherFields B ip source j j', f.Fits :=
      List.forall_mem_cons.mpr ⟨fits_of_denotes I B (v := .str mac) trivial rfl (by decide),
        List.forall_mem_cons.mpr ⟨fits_of_denotes I B hIp hj (by decide),
          List.forall_mem_singleton.mpr (fits_of_denotes I B hSource hj' (by decide))⟩⟩
    have hIn : ∀ f ∈ macField mac :: otherFields B ip source j j', f.member ∈ ms :=
      List.forall_mem_cons.mpr ⟨Json.mem_of_lookup hMac, List.forall_mem_cons.mpr
        ⟨Json.mem_of_lookup hLookIp, List.forall_mem_singleton.mpr (Json.mem_of_lookup hLookSource)⟩⟩
    have hKeys : ["mac".toList, "ip".toList, "source".toList].Nodup := by decide
    have hTight : 4 * 2 < "mac".toList.length + 6 ∧ 4 * 1 < "ip".toList.length + 6 ∧
        4 * 0 < "source".toList.length + 6 ∧ True := by decide
    obtain ⟨hPlain, hRead⟩ := Field.plain_of_members hFits hKeys hTight hIn
      (Json.skip_of_not_blank (by decide) _) hMembers
    have hReadKeys : (ms.map Prod.fst).Nodup := by
      rw [hRead]
      exact hKeys
    intro f hf
    refine ⟨hPlain f hf, Json.lookup_of_nodup (m := f.plainMember) hReadKeys ?_⟩
    rw [hRead]
    exact List.mem_map_of_mem hf

/-- The details say what was discovered exactly when all three are texts that need no escapes. -/
theorem readsBack_discovery_iff (hIp : Bindable ip) (hSource : Bindable source) :
    ReadsBack I (discoveryDetails B mac ip source).toList (discovery mac ip source) ↔
      Each (fun s => ∀ c ∈ s, Json.Plain c) (fun _ => False) (discovery mac ip source) := by
  constructor
  · rintro ⟨⟨j, hText⟩, hSays⟩
    obtain ⟨ms, rfl, -, ⟨j₁, hMac, hj₁⟩, ⟨j₂, hLookIp, hj₂⟩, ⟨j₃, hLookSource, hj₃⟩, -⟩ := hSays j hText
    obtain rfl : j₁ = .str mac.toList := hj₁
    obtain ⟨u, hReads, -⟩ := hText
    rw [toList_discoveryDetails B mac ip source j₂ j₃, Json.skip_of_not_blank (by decide),
      ← toList_discoveryDetails] at hReads
    have hFields := fields_of_details I B mac ip source hIp hSource hj₂ hj₃ hMac hLookIp hLookSource hReads
    obtain ⟨hMacPlain, -⟩ := hFields _ (.head _)
    obtain ⟨hIpPlain, hIpRead⟩ := hFields _ (.tail _ (.head _))
    obtain ⟨hSourcePlain, hSourceRead⟩ := hFields _ (.tail _ (.tail _ (.head _)))
    obtain rfl : j₂ = .str (ip.toStr B).toList := Option.some.inj (hLookIp.symm.trans hIpRead)
    obtain rfl : j₃ = .str (source.toStr B).toList := Option.some.inj (hLookSource.symm.trans hSourceRead)
    exact ⟨by decide, hMacPlain, by decide, each_of_str I hj₂ hIpPlain, by decide,
      each_of_str I hj₃ hSourcePlain, trivial⟩
  · rintro ⟨-, hMac, -, hIpText, -, hSourceText, -⟩
    obtain ⟨ip, rfl, hIpPlain⟩ := str_of_each hIp hIpText
    obtain ⟨source, rfl, hSourcePlain⟩ := str_of_each hSource hSourceText
    have hText : (discoveryDetails B mac (.str ip) (.str source)).toList =
        render rawText I.reprFloat (discovery mac (.str ip) (.str source)) := by
      simp [discoveryDetails, discovery, render, renderItems, rawText, PyVal.toStr]
    rw [hText]
    exact readsBack_of_each rawText_quoting ⟨(by decide : ["mac", "ip", "source"].Nodup), trivial, trivial,
      trivial, trivial⟩ ⟨by decide, hMac, by decide, hIpPlain, by decide, hSourcePlain, trivial⟩

end Discovery

/-! ## The four texts -/

/-- A value that is stored, with what it is stored from: the result of a CoA request, the actions of
a policy, the enrichment of an AD event and a discovery event. -/
inductive Stored (I : Interpreter)
  | coa (env : Coa.Env) (session : FoundSession) (r : CoAResult)
  | actions (B : Builtins) (policy : PolicyRow) (deviceId : PyVal) (matched : Bool) (xs : List PyVal)
      (hActions : chosenActions policy matched = .list xs) (hXs : Jsonable I (.list xs))
  | enrichment (B : Builtins) (enrichment : Dict PyVal) (h : ∀ item ∈ enrichment, Jsonable I item.2)
  | discovered (B : Builtins) (mac : String) (ip source : PyVal) (hIp : Bindable ip)
      (hSource : Bindable source)

namespace Stored

variable {I : Interpreter}

def value : Stored I → PyVal
  | coa _ _ r => .dict r.toDict
  | actions _ _ _ _ xs _ _ => .list xs
  | enrichment _ e _ => .dict (enrichedAttributes e)
  | discovered _ mac ip source _ _ => discovery mac ip source

/-- The text of the column. -/
def text : Stored I → String
  | coa env session r => (auditRow { env with builtins := builtins I env.builtins } session r).details
  | actions B policy deviceId matched _ _ _ =>
    (evaluationRow (builtins I B) deviceId policy matched).actionsTaken
  | enrichment B e _ => enrichmentText (builtins I B) e
  | discovered B mac ip source _ _ => discoveryDetails (builtins I B) mac ip source

/-- The texts of the value are such that the text of the column says them, and there is nothing else
than numbers beside them. -/
def Legible : Stored I → Prop
  | coa _ _ _ => False
  | actions _ _ _ _ xs _ _ => Each (ReprLegible I.printable) IsNumber (.list xs)
  | enrichment _ e _ => Each (PlainLegible I.printable) IsNumber (.dict (enrichedAttributes e))
  | discovered _ mac ip source _ _ =>
    Each (fun s => ∀ c ∈ s, Json.Plain c) (fun _ => False) (discovery mac ip source)

theorem toStr_list (B : Builtins) (xs : List PyVal) :
    ((PyVal.list xs).toStr (builtins I B)).toList = repr I (.list xs) := String.toList_ofList

theorem toStr_dict (B : Builtins) (items : Dict PyVal) :
    ((PyVal.dict items).toStr (builtins I B)).toList = repr I (.dict items) := String.toList_ofList

theorem jsonable_getD {d : Dict PyVal} (h : ∀ item ∈ d, Jsonable I item.2) (k : String) :
    Jsonable I (d.getD k .none) := by
  rw [Dict.getD]
  cases hGet : d.get? k with
  | none => trivial
  | some v => exact h _ (Dict.mem_of_get? hGet)

theorem jsonable_enrichedAttributes {e : Dict PyVal} (h : ∀ item ∈ e, Jsonable I item.2) :
    Jsonable I (.dict (enrichedAttributes e)) :=
  ⟨(by decide : ["ad_event_id", "ad_dc_name", "ad_workstation", "ad_logon_type"].Nodup),
    jsonable_getD h _, jsonable_getD h _, jsonable_getD h _, jsonable_getD h _, trivial⟩

theorem jsonable_toDict (r : CoAResult) : Jsonable I (.dict r.toDict) := by
  have hText : ∀ t, Jsonable I (optText t) := by
    rintro (_ | t) <;> trivial
  have hNumber : ∀ n, Jsonable I (optNumber n) := by
    rintro (_ | n) <;> trivial
  exact ⟨(by decide : ["success", "action", "nas_ip", "session_id", "mac_address", "response_code",
    "error_cause", "error_message", "timestamp"].Nodup), trivial, trivial, hText _, hText _, hText _,
    hNumber _, hNumber _, hText _, trivial, trivial⟩

/-- The details of a CoA request begin with a truth value, which JSON spells differently. -/
theorem details_not_json (env : Coa.Env) (session : FoundSession) (r : CoAResult) (j : Json) :
    ¬Json.IsText (coa (I := I) env session r).text.toList j := by
  rintro ⟨u, hReads, -⟩
  have hText : (coa (I := I) env session r).text.toList =
      render (replacedText I.printable) I.reprFloat (.dict r.toDict) := by
    have hDetails : (coa (I := I) env session r).text.toList = replaced (repr I (.dict r.toDict)) := by
      rw [text, auditRow, toList_replaceChar, toStr_dict]
    rw [hDetails]
    exact replaced_render _ (jsonable_toDict r)
  rw [hText, ← List.append_nil (render _ _ _), CoAResult.toDict, render_dict,
    Json.skip_of_not_blank (by decide)] at hReads
  obtain ⟨-, hClose⟩ | ⟨ms, -, hMembers⟩ := hReads.of_brace
  · rw [(replacedText_quoting.opens _).skip, replacedText_eq] at hClose
    exact absurd (List.cons.inj hClose).1 (by decide)
  · have hSuccess : Jsonable I (.bool r.success) := trivial
    obtain ⟨-, x, ms, w, hValue, -⟩ := member_of_reads replacedText_quoting (by decide) hSuccess rfl hMembers
    exact (each_of_reads replacedText_quoting (.bool r.success) hSuccess trivial (items_head _ [])
      hValue).1

theorem readsBack_actions_iff (B : Builtins) (policy : PolicyRow) (deviceId : PyVal) (matched : Bool)
    {xs : List PyVal} (hActions : chosenActions policy matched = .list xs) (hXs : Jsonable I (.list xs)) :
    ReadsBack I (actions B policy deviceId matched xs hActions hXs).text.toList (.list xs) ↔
      Each (ReprLegible I.printable) IsNumber (.list xs) := by
  have hText : (actions B policy deviceId matched xs hActions hXs).text.toList = repr I (.list xs) := by
    rw [text, evaluationRow, hActions]
    cases xs with
    | nil =>
      rw [repr, render]
      exact (by decide : "[]".toList = ['[', ']'])
    | cons x xs => exact toStr_list B (x :: xs)
  rw [hText]
  exact readsBack_repr_iff I hXs

theorem readsBack_enrichment_iff (B : Builtins) {e : Dict PyVal} (h : ∀ item ∈ e, Jsonable I item.2) :
    ReadsBack I (enrichment B e h).text.toList (.dict (enrichedAttributes e)) ↔
      Each (PlainLegible I.printable) IsNumber (.dict (enrichedAttributes e)) := by
  have hText : (enrichment B e h).text.toList = replaced (repr I (.dict (enrichedAttributes e))) := by
    rw [text, enrichmentText, toList_replaceChar, toStr_dict]
  rw [hText]
  exact readsBack_replaced_iff I (jsonable_enrichedAttributes h)

/-- The text of a column says the value it is stored for exactly when the value is legible. -/
theorem readsBack_iff (s : Stored I) : ReadsBack I s.text.toList s.value ↔ s.Legible := by
  cases s with
  | coa env session r =>
    exact iff_of_false (fun ⟨⟨j, hText⟩, _⟩ => details_not_json env session r j hText) id
  | actions B policy deviceId matched xs hActions hXs =>
    exact readsBack_actions_iff B policy deviceId matched hActions hXs
  | enrichment B e h => exact readsBack_enrichment_iff B h
  | discovered B mac ip source hIp hSource =>
    exact readsBack_discovery_iff I (builtins I B) mac ip source hIp hSource

end Stored

/-! ## Ordinary values -/

/-- The library functions on printable texts and integral floats. -/
def plainInterpreter : Interpreter where
  printable _ := true
  IsFloat q := q.den = 1
  reprFloat q := (toString q.num).toList ++ ['.', '0']
  float cs := (Text.decimal (String.ofList cs.dropLast.dropLast)).map fun n : Int => .finite (n : ℚ)
  reprFloat_decimal q _ := ⟨q.num, _, ['.', '0'], [], (List.append_nil _).symm, .inl rfl,
    .inr ⟨['0'], rfl, by decide, by decide⟩, .inl rfl, .inl (by decide)⟩
  float_reprFloat q hq := by
    have hDigits : ((toString q.num).toList ++ ['.', '0']).dropLast.dropLast = (toString q.num).toList := by
      rw [List.dropLast_append_of_ne_nil (by decide)]
      exact List.dropLast_concat
    rw [hDigits, String.ofList_toList, Text.decimal_toString, Option.map_some, Rat.coe_int_num_of_den_eq_one hq]

def plainEnv : Coa.Env where
  builtins := plainBuiltins
  codecs := ⟨fun _ => [], fun _ => ""⟩
  sqlLower := lowerAscii
  decryptSecret s := .ok (some s)

/-- An acknowledged disconnect. -/
def disconnected : Stored plainInterpreter :=
  .coa plainEnv ⟨⟨"s1", none, some "alice", none, some "10.0.0.1", some 10, "active", 0⟩, none⟩
    ⟨true, "disconnect", some "10.0.0.1", some "s1", none, some 41, none, none, "2026-01-01T00:00:00+00:00"⟩

/-- The actions of a policy that rejects. -/
def rejecting : Stored plainInterpreter :=
  .actions plainBuiltins ⟨.int 1, .str "block", 10, .list [], .list [.dict [("type", .str "reject")]],
    .list []⟩ (.str "d1") true [.dict [("type", .str "reject")]] rfl
    ⟨⟨by decide, trivial, trivial⟩, trivial⟩

/-- A locked account, which has no logon type. -/
def lockedOut : Stored plainInterpreter :=
  .enrichment plainBuiltins [("ad_event_id", .str "4740"), ("ad_dc_name", .str "DC1"),
    ("ad_workstation", .str "WS1"), ("ad_logon_type", .none)]
    (by simp only [List.forall_mem_cons]; exact ⟨trivial, trivial, trivial, trivial, nofun⟩)

/-- A device whose address is not known. -/
def addressless : Stored plainInterpreter :=
  .discovered plainBuiltins "00:11:22:33:44:55" .none (.str "dhcp") trivial trivial

/-- No column says what is stored in it. -/
theorem ordinary_values_lost :
    (∀ j, ¬Json.IsText disconnected.text.toList j) ∧
    ¬ReadsBack plainInterpreter rejecting.text.toList rejecting.value ∧
    ¬ReadsBack plainInterpreter lockedOut.text.toList lockedOut.value ∧
    ¬ReadsBack plainInterpreter addressless.text.toList addressless.value := by
  refine ⟨Stored.details_not_json _ _ _, ?_, ?_, ?_⟩
  · intro h
    have hKey := ((Stored.readsBack_actions_iff _ _ _ _ _ _).mp h).1.1.1
    exact absurd hKey (by decide)
  · intro h
    exact ((Stored.readsBack_enrichment_iff _ _).mp h).2.2.2.2.2.2.2.1
  · intro h
    exact ((readsBack_discovery_iff _ _ _ .none (.str "dhcp") trivial trivial).mp h).2.2.2.1

end OpenRadiusWeb.Jsonb
