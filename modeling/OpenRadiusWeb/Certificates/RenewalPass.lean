import OpenRadiusWeb.Certificates.AutoRenewal
import Mathlib.Data.List.Pairwise
import Mathlib.Data.List.TakeWhile

/-! # When a renewal pass keeps its promise

The summary, the database and the candidates' own transactions agree exactly when no
candidate fails at a statement or at the publish, or when a statement fails and nothing was
there to be renewed.
-/

namespace OpenRadiusWeb.Certificates

open Effects (Eff)

/-- What `clashes` looks at. -/
def Certificate.key (c : Certificate) : String × String × String := (c.id, c.name, c.tenantId)

def keys (rows : List Certificate) : List (String × String × String) := rows.map Certificate.key

theorem any_clashes_congr {rows rows' : List Certificate} (h : keys rows = keys rows')
    (row : Certificate) : rows.any (clashes row) = rows'.any (clashes row) := by
  have hKey : ∀ xs : List Certificate, xs.any (clashes row) =
      (keys xs).any fun k => row.id == k.1 || (row.name == k.2.1 && row.tenantId == k.2.2) := by
    intro xs
    rw [keys, List.any_map]
    rfl
  rw [hKey, hKey, h]

theorem keys_deactivated (tenantId certType : String) (rows : List Certificate) :
    keys (deactivated tenantId certType rows) = keys rows := by
  rw [keys, deactivated, List.map_map]
  apply List.map_congr_left
  intro c _
  by_cases h : c.ofType tenantId certType = true <;> simp [h, Certificate.key]

theorem keys_activated (tenantId certId : String) (rows : List Certificate) :
    keys (activated tenantId certId rows) = keys rows := by
  rw [keys, activated, List.map_map]
  apply List.map_congr_left
  intro c _
  by_cases h : c.isRow tenantId certId = true <;> simp [h, Certificate.key]

theorem keys_withRenewed (tenantId : String) (row : Certificate) (rows : List Certificate) :
    keys (withRenewed tenantId row rows) = keys rows ++ [row.key] := by
  rw [withRenewed, keys_activated, keys_deactivated, keys, List.map_append]
  rfl

namespace PassEnv

variable {env : PassEnv} {actor : Actor} {turn : Nat} {old : Certificate}
  {table rows : List Certificate}

/-- What is known of a row that a candidate makes. -/
structure Fresh (actor : Actor) (table : List Certificate) (row : Certificate) : Prop where
  tenant : row.tenantId = actor.tenantId
  type : row.certType = "server"
  inactive : row.isActive = false
  apart : table.any (clashes row) = false

/-- A candidate that makes a row had everything it needs. -/
structure Makes (env : PassEnv) (actor : Actor) (turn : Nat) (old : Certificate)
    (table : List Certificate) (ca : CaMaterial) (new : NewCert) : Prop where
  accepts : (renewalRequest env.lib env.now old).accepts = true
  selects : env.refuses turn (.selectActiveCa actor.tenantId) = false
  hasCa : activeCa actor.tenantId table = some ca
  prepares : env.prepare actor turn (renewalRequest env.lib env.now old) ca = .ok new
  performs : (statementsFor actor new (new.row (env.newId turn)).id).any (env.refuses turn) = false
  apart : table.any (clashes (new.row (env.newId turn))) = false

theorem Makes.fate_eq {ca : CaMaterial} {new : NewCert} (h : Makes env actor turn old table ca new) :
    env.fate actor turn old table =
      .ofPublish (new.row (env.newId turn)) (env.external turn
        (.publishFreeradiusApplyForCert (new.row (env.newId turn)).id "server")) := by
  simp only [fate, h.accepts, h.selects, h.hasCa, h.prepares, h.performs, h.apart, if_true,
    Bool.false_eq_true, if_false, Bool.or_self]

theorem row?_ofPublish (row : Certificate) (r : Except PyException Unit) :
    (Fate.ofPublish row r).row? = some row := by
  cases r <;> rfl

theorem makes_of_row {row : Certificate} (h : (env.fate actor turn old table).row? = some row) :
    ∃ ca new, Makes env actor turn old table ca new ∧ row = new.row (env.newId turn) := by
  cases hAccepts : (renewalRequest env.lib env.now old).accepts with
  | false => simp [fate, hAccepts, Fate.row?] at h
  | true =>
    cases hSelect : env.refuses turn (.selectActiveCa actor.tenantId) with
    | true => simp [fate, hAccepts, hSelect, Fate.row?] at h
    | false =>
      cases hCa : activeCa actor.tenantId table with
      | none => simp [fate, hAccepts, hSelect, hCa, Fate.row?] at h
      | some ca =>
        cases hPrepare : env.prepare actor turn (renewalRequest env.lib env.now old) ca with
        | error e => simp [fate, hAccepts, hSelect, hCa, hPrepare, Fate.row?] at h
        | ok new =>
          cases hRefused : (statementsFor actor new (new.row (env.newId turn)).id).any
              (env.refuses turn) with
          | true =>
            simp only [fate, hAccepts, hSelect, hCa, hPrepare, hRefused] at h
            simp [Fate.row?] at h
          | false =>
            cases hApart : table.any (clashes (new.row (env.newId turn))) with
            | true =>
              simp only [fate, hAccepts, hSelect, hCa, hPrepare, hRefused, hApart] at h
              simp [Fate.row?] at h
            | false =>
              have hMakes : Makes env actor turn old table ca new :=
                ⟨hAccepts, hSelect, hCa, hPrepare, hRefused, hApart⟩
              rw [hMakes.fate_eq, row?_ofPublish] at h
              exact ⟨ca, new, hMakes, (Option.some.inj h).symm⟩

theorem fate_row {row : Certificate} (h : (env.fate actor turn old table).row? = some row) :
    Fresh actor table row := by
  obtain ⟨ca, new, hMakes, rfl⟩ := makes_of_row h
  obtain ⟨hTenant, hType, -⟩ := prepare_ok hMakes.prepares
  exact ⟨hTenant, hType, rfl, hMakes.apart⟩

theorem fate_congr (hKeys : keys rows = keys table)
    (hCa : activeCa actor.tenantId rows = activeCa actor.tenantId table) :
    env.fate actor turn old rows = env.fate actor turn old table := by
  simp only [fate, hCa, any_clashes_congr hKeys]

theorem fate_mono {extra : List Certificate} {row : Certificate}
    (hCa : activeCa actor.tenantId (table ++ extra) = activeCa actor.tenantId table)
    (h : env.fate actor turn old (table ++ extra) = .renewed row) :
    env.fate actor turn old table = .renewed row := by
  have hRow : (env.fate actor turn old (table ++ extra)).row? = some row := by
    rw [h]
    rfl
  obtain ⟨ca, new, hMakes, -⟩ := makes_of_row hRow
  have hApart := hMakes.apart
  rw [List.any_append, Bool.or_eq_false_iff] at hApart
  have hFewer : Makes env actor turn old table ca new :=
    { hMakes with hasCa := hCa ▸ hMakes.hasCa, apart := hApart.1 }
  rw [hFewer.fate_eq, ← hMakes.fate_eq, h]

theorem filter_map_same {α : Type} {p : α → Bool} {g : α → α} {xs : List α}
    (h : ∀ x ∈ xs, p (g x) = p x ∧ (p x = true → g x = x)) :
    (xs.map g).filter p = xs.filter p := by
  induction xs with
  | nil => rfl
  | cons x xs ih =>
    obtain ⟨⟨hKeep, hSame⟩, hRest⟩ := List.forall_mem_cons.mp h
    rw [List.map_cons, List.filter_cons, List.filter_cons, hKeep, ih hRest]
    cases hp : p x with
    | true => simp [hSame hp]
    | false => rfl

theorem activeCa_append {tenantId : String} {extra : List Certificate}
    (h : ∀ row ∈ extra, row.certType = "server") :
    activeCa tenantId (table ++ extra) = activeCa tenantId table := by
  have hNone : extra.filter (fun c => c.ofType tenantId "ca" && c.isActive) = [] := by
    rw [List.filter_eq_nil_iff]
    intro row hRow
    simp [Certificate.ofType, h row hRow]
  rw [activeCa, List.filter_append, hNone, List.append_nil, activeCa]

theorem activeCa_deactivated (tenantId tenant : String) :
    activeCa tenantId (deactivated tenant "server" rows) = activeCa tenantId rows := by
  rw [activeCa, deactivated, filter_map_same, activeCa]
  intro c _
  by_cases h : c.ofType tenant "server" = true
  · have hType : c.certType = "server" := by
      simp only [Certificate.ofType, Bool.and_eq_true, beq_iff_eq] at h
      exact h.1
    simp only [if_pos h]
    simp [Certificate.ofType, hType]
  · simp [h]

theorem activeCa_activated {tenantId tenant certId : String}
    (h : ∀ c ∈ rows, c.isRow tenant certId = true → c.certType = "server") :
    activeCa tenantId (activated tenant certId rows) = activeCa tenantId rows := by
  rw [activeCa, activated, filter_map_same, activeCa]
  intro c hc
  by_cases hRow : c.isRow tenant certId = true
  · simp [hRow, Certificate.ofType, h c hc hRow]
  · simp [hRow]

theorem activeCa_withRenewed {tenantId : String} {row : Certificate}
    (hRow : Fresh actor rows row) :
    activeCa tenantId (withRenewed actor.tenantId row rows) = activeCa tenantId rows := by
  rw [withRenewed, activeCa_activated, activeCa_deactivated, activeCa_append (by simpa using hRow.type)]
  intro c hc hIsRow
  obtain ⟨d, hd, rfl⟩ := List.mem_map.mp hc
  have hFound : d ∈ (rows ++ [row]).filter (Certificate.isRow actor.tenantId row.id) := by
    refine List.mem_filter.mpr ⟨hd, ?_⟩
    split at hIsRow <;> exact hIsRow
  rw [filter_isRow_append hRow.tenant hRow.apart, List.mem_singleton] at hFound
  subst hFound
  split <;> exact hRow.type

theorem hasActiveServer_withRenewed {tenantId : String} {row : Certificate}
    (hRow : Fresh actor rows row) (h : HasActiveServer tenantId rows) :
    HasActiveServer tenantId (withRenewed actor.tenantId row rows) := by
  by_cases hTenant : tenantId = actor.tenantId
  · refine ⟨{ row with isActive := true }, ?_, ?_, rfl⟩
    · simp only [withRenewed, activated, deactivated, List.map_map, List.mem_map]
      refine ⟨row, List.mem_append_right _ List.mem_cons_self, ?_⟩
      simp [Certificate.ofType, Certificate.isRow, hRow.type, hRow.tenant]
    · simp [Certificate.ofType, hRow.type, hRow.tenant, hTenant]
  · obtain ⟨c, hc, hType, hActive⟩ := h
    refine ⟨c, ?_, hType, hActive⟩
    simp only [withRenewed, activated, deactivated, List.map_map, List.mem_map]
    refine ⟨c, List.mem_append_left _ hc, ?_⟩
    simp only [Certificate.ofType, Bool.and_eq_true, beq_iff_eq] at hType
    have hOther : c.tenantId ≠ actor.tenantId := fun hSame => hTenant (hType.2.symm.trans hSame)
    simp [Certificate.ofType, Certificate.isRow, hOther]

end PassEnv

/-! ## The loop -/

def RenewalSummary.after (summary : RenewalSummary) (old : Certificate) :
    Except PyException String → RenewalSummary
  | .ok name => { summary with renewed := summary.renewed ++ [name] }
  | .error e => { summary with errors := summary.errors ++ [renewalError old e] }

namespace PassEnv

variable {env : PassEnv} {actor : Actor} {turn : Nat} {old : Certificate}
  {table rows : List Certificate} {s : Session (List Certificate)} {summary : RenewalSummary}

def tagged (env : PassEnv) (c : Nat × Command) :
    Eff (Session (List Certificate)) PyException c.2.Answer := env.exec c.1 c.2

theorem renewCerts_cons {rest : List Certificate} {s' : Session (List Certificate)} {r : Except PyException String}
    (h : (renewCert env.lib actor env.now old).run (env.exec turn) s = (r, s')) :
    (renewCerts env.lib actor env.now turn (old :: rest) summary).run env.tagged s =
      (renewCerts env.lib actor env.now (turn + 1) rest (summary.after old r)).run env.tagged s' := by
  rw [renewCerts, Program.run_bind, Program.run_attempt, Program.run_bind, Program.run_tag]
  have hTag : (renewCert env.lib actor env.now old).run (fun c => env.tagged (turn, c)) s = (r, s') := h
  rw [hTag]
  cases r <;> rfl

theorem renewCert_aborted (turn : Nat) (old : Certificate) (hs : s.aborted = true) :
    ∃ e, (renewCert env.lib actor env.now old).run (env.exec turn) s = (.error e, s) := by
  unfold renewCert
  by_cases hAccepts : (renewalRequest env.lib env.now old).accepts = true
  · simp only [if_pos hAccepts]
    refine ⟨env.failedTransaction, ?_⟩
    rw [generateServer, Program.bind_assoc, lookupActiveCa, Program.bind_assoc, Program.run_bind,
      issue, Program.run_command, exec_aborted rfl hs]
  · simp only [if_neg hAccepts]
    exact ⟨_, rfl⟩

theorem renewCerts_aborted (hs : s.aborted = true) (cands : List Certificate) :
    ∃ summary', (renewCerts env.lib actor env.now turn cands summary).run env.tagged s =
      (.ok summary', s) ∧ summary'.renewed = summary.renewed := by
  induction cands generalizing turn summary with
  | nil => exact ⟨summary, rfl, rfl⟩
  | cons old rest ih =>
    obtain ⟨e, he⟩ := renewCert_aborted turn old hs
    rw [renewCerts_cons he]
    exact ih

/-- What the loop leaves, by the fates of its candidates. -/
structure Leaves (fs : List Fate) (summary : RenewalSummary) (s : Session (List Certificate))
    (summary' : RenewalSummary) (s' : Session (List Certificate)) : Prop where
  committed : s'.committed = s.committed
  renewed : summary'.renewed =
    summary.renewed ++ (fs.takeWhile (· ≠ .aborted)).filterMap Fate.name?
  aborted : s'.aborted = decide (.aborted ∈ fs)
  keys : .aborted ∉ fs → keys s'.working = keys s.working ++ keys (fs.filterMap Fate.row?)
  active : .aborted ∉ fs → ∀ tenantId, HasActiveServer tenantId s.working →
    HasActiveServer tenantId s'.working

theorem Leaves.cons {f : Fate} {fs : List Fate} {summary₁ summary' : RenewalSummary}
    {s₁ s' : Session (List Certificate)} (hf : f ≠ .aborted)
    (h : Leaves fs summary₁ s₁ summary' s') (hCommitted : s₁.committed = s.committed)
    (hRenewed : summary₁.renewed = summary.renewed ++ f.name?.toList)
    (hKeys : Certificates.keys s₁.working = Certificates.keys s.working ++ Certificates.keys f.row?.toList)
    (hActive : ∀ tenantId, HasActiveServer tenantId s.working →
      HasActiveServer tenantId s₁.working) : Leaves (f :: fs) summary s summary' s' where
  committed := h.committed.trans hCommitted
  renewed := by
    rw [h.renewed, hRenewed, List.takeWhile_cons, if_pos (by simpa using hf), List.filterMap_cons,
      List.append_assoc]
    cases f.name? <;> rfl
  aborted := by
    rw [h.aborted]
    congr 1
    simp [Ne.symm hf]
  keys hNone := by
    rw [List.mem_cons, not_or] at hNone
    rw [h.keys hNone.2, hKeys, List.append_assoc, List.filterMap_cons]
    cases f.row? <;> rfl
  active hNone tenantId hOld := by
    rw [List.mem_cons, not_or] at hNone
    exact h.active hNone.2 tenantId (hActive tenantId hOld)

theorem alike_withRenewed {row : Certificate} (hRow : Fresh actor rows row)
    (hKeys : Certificates.keys rows = Certificates.keys table)
    (hCa : ∀ tenantId, activeCa tenantId rows = activeCa tenantId table) :
    Certificates.keys (withRenewed actor.tenantId row rows) = Certificates.keys (table ++ [row]) ∧
      ∀ tenantId, activeCa tenantId (withRenewed actor.tenantId row rows) =
        activeCa tenantId (table ++ [row]) := by
  refine ⟨?_, fun tenantId => ?_⟩
  · rw [keys_withRenewed, hKeys, Certificates.keys, Certificates.keys, List.map_append]
    rfl
  · rw [activeCa_withRenewed hRow, hCa, activeCa_append (by simpa using hRow.type)]

theorem renewCerts_run (cands : List Certificate) :
    ∀ (turn : Nat) (table : List Certificate) (summary : RenewalSummary)
      (s : Session (List Certificate)), s.aborted = false →
      Certificates.keys s.working = Certificates.keys table →
      (∀ tenantId, activeCa tenantId s.working = activeCa tenantId table) →
      ∃ summary' s', (renewCerts env.lib actor env.now turn cands summary).run env.tagged s =
        (.ok summary', s') ∧ Leaves (env.fates actor turn cands table) summary s summary' s' := by
  induction cands with
  | nil =>
    intro turn table summary s hs hKeys hCa
    refine ⟨summary, s, rfl, rfl, ?_, ?_, fun _ => ?_, fun _ tenantId h => h⟩
    · simp [fates]
    · simp [fates, hs]
    · simp [fates, Certificates.keys]
  | cons old rest ih =>
    intro turn table summary s hs hKeys hCa
    have hSame : env.fate actor turn old s.working = env.fate actor turn old table :=
      fate_congr hKeys (hCa actor.tenantId)
    have hEnds : Ends actor s ((renewCert env.lib actor env.now old).run (env.exec turn) s)
        (env.fate actor turn old table) := by
      rw [← hSame]
      exact renewCert_ends hs
    have hFresh : ∀ row, (env.fate actor turn old table).row? = some row →
        Fresh actor s.working row := by
      intro row hRow
      rw [← hSame] at hRow
      exact fate_row hRow
    rw [fates]
    generalize env.fate actor turn old table = f at hEnds hFresh ⊢
    generalize hRun : (renewCert env.lib actor env.now old).run (env.exec turn) s = out at hEnds
    cases hEnds with
    | failed e =>
      obtain ⟨summary', s', hRest, hLeaves⟩ := ih (turn + 1) (table ++ [])
        (summary.after old (.error e)) s hs (by simpa) (by simpa)
      refine ⟨summary', s', by rw [renewCerts_cons hRun, hRest], ?_⟩
      exact hLeaves.cons (by simp) rfl (by simp [RenewalSummary.after, Fate.name?])
        (by simp [Fate.row?, Certificates.keys]) fun _ h => h
    | aborted e s' hAborted hCommitted =>
      obtain ⟨summary', hRest, hRenewed⟩ := @renewCerts_aborted env actor (turn + 1) s'
        (summary.after old (.error e)) hAborted rest
      refine ⟨summary', s', by rw [renewCerts_cons hRun, hRest], hCommitted, ?_, ?_, ?_, ?_⟩
      · simp [hRenewed, RenewalSummary.after]
      · simp [hAborted]
      · simp
      · simp
    | unannounced e row =>
      have hRow := hFresh row rfl
      obtain ⟨hKeys', hCa'⟩ := alike_withRenewed hRow hKeys hCa
      obtain ⟨summary', s', hRest, hLeaves⟩ := ih (turn + 1) (table ++ [row])
        (summary.after old (.error e))
        { s with working := withRenewed actor.tenantId row s.working } hs hKeys' hCa'
      refine ⟨summary', s', by rw [renewCerts_cons hRun]; exact hRest, ?_⟩
      exact hLeaves.cons (by simp) rfl (by simp [RenewalSummary.after, Fate.name?])
        (keys_withRenewed _ _ _) fun _ h => hasActiveServer_withRenewed hRow h
    | renewed row =>
      have hRow := hFresh row rfl
      obtain ⟨hKeys', hCa'⟩ := alike_withRenewed hRow hKeys hCa
      obtain ⟨summary', s', hRest, hLeaves⟩ := ih (turn + 1) (table ++ [row])
        (summary.after old (.ok row.name))
        { s with working := withRenewed actor.tenantId row s.working } hs hKeys' hCa'
      refine ⟨summary', s', by rw [renewCerts_cons hRun]; exact hRest, ?_⟩
      exact hLeaves.cons (by simp) rfl (by simp [RenewalSummary.after, Fate.name?])
        (keys_withRenewed _ _ _) fun _ h => hasActiveServer_withRenewed hRow h

/-! ## The pass as a whole -/

/-- The rows that candidates make in turn. -/
def made (env : PassEnv) (actor : Actor) (turn : Nat) (cands table : List Certificate) :
    List Certificate := (env.fates actor turn cands table).filterMap Fate.row?

theorem made_cons {rest : List Certificate} :
    env.made actor turn (old :: rest) table =
      (env.fate actor turn old table).row?.toList ++ env.made actor (turn + 1) rest
        (table ++ (env.fate actor turn old table).row?.toList) := by
  rw [made, fates, List.filterMap_cons, made]
  cases (env.fate actor turn old table).row? <;> rfl

/-- The rows that candidates make are new and of different names. -/
theorem made_fresh (cands : List Certificate) : ∀ (turn : Nat) (table : List Certificate),
    (∀ row ∈ env.made actor turn cands table, Fresh actor table row) ∧
      (env.made actor turn cands table).Pairwise fun a b => a.name ≠ b.name := by
  induction cands with
  | nil => exact fun turn table => by simp [made, fates]
  | cons old rest ih =>
    intro turn table
    obtain ⟨hRest, hNames⟩ := ih (turn + 1) (table ++ (env.fate actor turn old table).row?.toList)
    rw [made_cons]
    cases hRow : (env.fate actor turn old table).row? with
    | none =>
      rw [hRow] at hRest hNames
      rw [Option.toList_none, List.append_nil] at hRest hNames ⊢
      exact ⟨hRest, hNames⟩
    | some row =>
      rw [hRow] at hRest hNames
      have hFresh := fate_row hRow
      refine ⟨?_, ?_⟩
      · intro r hr
        rcases List.mem_append.mp hr with hr | hr
        · obtain rfl := List.mem_singleton.mp hr
          exact hFresh
        · have hApart := (hRest r hr).apart
          rw [List.any_append, Bool.or_eq_false_iff] at hApart
          exact { hRest r hr with apart := hApart.1 }
      · refine List.pairwise_append.mpr ⟨List.pairwise_singleton _ _, hNames, ?_⟩
        intro a ha b hb hSame
        obtain rfl := List.mem_singleton.mp ha
        have hApart := (hRest b hb).apart
        simp [clashes, hSame, (hRest b hb).tenant, hFresh.tenant] at hApart

/-- A candidate in a transaction of its own. -/
theorem transact_renewCert {rows' : List Certificate} (r : Except PyException String)
    (h : Session.transact ((renewCert env.lib actor env.now old).run (env.exec turn)) rows =
      (r, rows')) :
    (∃ row, env.fate actor turn old rows = .renewed row ∧ r = .ok row.name ∧
        rows' = withRenewed actor.tenantId row rows) ∨
      ((∀ row, env.fate actor turn old rows ≠ .renewed row) ∧ (∃ e, r = .error e) ∧
        rows' = rows) := by
  have hEnds : Ends actor (Session.start rows)
      ((renewCert env.lib actor env.now old).run (env.exec turn) (Session.start rows))
      (env.fate actor turn old rows) := renewCert_ends rfl
  rw [Session.transact] at h
  generalize env.fate actor turn old rows = f at hEnds
  generalize (renewCert env.lib actor env.now old).run (env.exec turn) (Session.start rows) = out
    at hEnds h
  cases hEnds with
  | renewed row =>
    cases h
    exact .inl ⟨row, rfl, rfl, rfl⟩
  | failed e =>
    cases h
    exact .inr ⟨by simp, ⟨e, rfl⟩, rfl⟩
  | aborted e s' =>
    cases h
    exact .inr ⟨by simp, ⟨e, rfl⟩, rfl⟩
  | unannounced e row =>
    cases h
    exact .inr ⟨by simp, ⟨e, rfl⟩, rfl⟩

/-- Where no candidate can harm another, apart or together makes no difference. -/
theorem renewedApart_of_calm (cands : List Certificate) :
    ∀ (turn : Nat) (table rows : List Certificate),
      Certificates.keys rows = Certificates.keys table →
      (∀ tenantId, activeCa tenantId rows = activeCa tenantId table) →
      (∀ f ∈ env.fates actor turn cands table, f ≠ .aborted ∧ ∀ row, f ≠ .unannounced row) →
      env.renewedApart actor turn cands rows =
        (env.fates actor turn cands table).filterMap Fate.name? := by
  induction cands with
  | nil => exact fun _ _ _ _ _ _ => rfl
  | cons old rest ih =>
    intro turn table rows hKeys hCa hCalm
    rw [fates] at hCalm ⊢
    obtain ⟨⟨hAborted, hUnannounced⟩, hRest⟩ := List.forall_mem_cons.mp hCalm
    have hSame : env.fate actor turn old rows = env.fate actor turn old table :=
      fate_congr hKeys (hCa actor.tenantId)
    rcases hTurn : Session.transact ((renewCert env.lib actor env.now old).run (env.exec turn)) rows
      with ⟨r, rows'⟩
    rw [renewedApart, hTurn]
    rcases transact_renewCert r hTurn with ⟨row, hFate, rfl, rfl⟩ | ⟨hFate, ⟨e, rfl⟩, rfl⟩
    · rw [hSame] at hFate
      rw [hFate] at hRest ⊢
      have hRow : Fresh actor rows row := fate_row (by rw [hSame, hFate]; rfl)
      obtain ⟨hKeys', hCa'⟩ := alike_withRenewed hRow hKeys hCa
      exact congrArg (List.cons row.name) (ih _ _ _ hKeys' hCa' hRest)
    · rw [hSame] at hFate
      cases hf : env.fate actor turn old table with
      | failed =>
        rw [hf] at hRest
        rw [List.filterMap_cons]
        exact ih _ _ _ (by simpa [Fate.row?] using hKeys) (by simpa [Fate.row?] using hCa) hRest
      | aborted => exact absurd hf hAborted
      | unannounced row => exact absurd hf (hUnannounced row)
      | renewed row => exact absurd hf (hFate row)

theorem renewedApart_eq_nil (cands : List Certificate) : ∀ turn : Nat,
    env.renewedApart actor turn cands rows = [] ↔
      ∀ c ∈ cands.zipIdx turn, ∀ row, env.fate actor c.2 c.1 rows ≠ .renewed row := by
  induction cands with
  | nil => exact fun turn => by simp [renewedApart]
  | cons old rest ih =>
    intro turn
    rcases hTurn : Session.transact ((renewCert env.lib actor env.now old).run (env.exec turn)) rows
      with ⟨r, rows'⟩
    rw [renewedApart, hTurn, List.zipIdx_cons, List.forall_mem_cons]
    rcases transact_renewCert r hTurn with ⟨row, hFate, rfl, rfl⟩ | ⟨hFate, ⟨e, rfl⟩, rfl⟩
    · simp [hFate]
    · simp [hFate, ih]

/-- A candidate that is not renewed alone is not renewed after others either. -/
theorem names_eq_nil (table cands : List Certificate) : ∀ (turn : Nat) (extra : List Certificate),
    (∀ row ∈ extra, row.certType = "server") →
    (∀ c ∈ cands.zipIdx turn, ∀ row, env.fate actor c.2 c.1 table ≠ .renewed row) →
    (env.fates actor turn cands (table ++ extra)).filterMap Fate.name? = [] := by
  induction cands with
  | nil => exact fun _ _ _ _ => rfl
  | cons old rest ih =>
    intro turn extra hExtra hAlone
    rw [List.zipIdx_cons, List.forall_mem_cons] at hAlone
    rw [fates, List.filterMap_cons]
    have hName : (env.fate actor turn old (table ++ extra)).name? = none := by
      cases hf : env.fate actor turn old (table ++ extra) with
      | renewed row => exact absurd (fate_mono (activeCa_append hExtra) hf) (hAlone.1 row)
      | failed => rfl
      | aborted => rfl
      | unannounced row => rfl
    rw [hName, List.append_assoc]
    refine ih _ _ ?_ hAlone.2
    intro row hRow
    rcases List.mem_append.mp hRow with hRow | hRow
    · exact hExtra row hRow
    · exact (fate_row (Option.mem_toList.mp hRow)).type

/-- What becomes of the database and the summary. -/
structure Outcome (env : PassEnv) (actor : Actor) (rows : List Certificate) : Prop where
  kept : .aborted ∈ env.fates actor 1 (env.candidates actor rows) rows →
    (env.certRenewalPass rows).2 = rows
  names : env.summaryNames rows = ((env.fates actor 1 (env.candidates actor rows) rows).takeWhile
    (· ≠ .aborted)).filterMap Fate.name?
  keys : .aborted ∉ env.fates actor 1 (env.candidates actor rows) rows →
    Certificates.keys (env.certRenewalPass rows).2 = Certificates.keys rows ++
      Certificates.keys (env.made actor 1 (env.candidates actor rows) rows)
  active : ∀ tenantId, HasActiveServer tenantId rows →
    HasActiveServer tenantId (env.certRenewalPass rows).2

theorem run_autoRenew (s : Session (List Certificate)) :
    (autoRenewExpiringServerCerts env.lib actor env.sqlNow env.now env.thresholdDays).run
        env.tagged s =
      match env.exec 0 (env.listing actor) s with
      | (.ok cands, s') =>
        (renewCerts env.lib actor env.now 1 cands ⟨cands.length, [], []⟩).run env.tagged s'
      | (.error e, s') => (.error e, s') := by
  have hListing : ((issue (env.listing actor)).tag 0).run env.tagged s =
      env.exec 0 (env.listing actor) s := by
    rw [Program.run_tag, issue, Program.run_command]
    rfl
  unfold listing at hListing ⊢
  rw [autoRenewExpiringServerCerts, Program.run_bind, hListing]
  rcases env.exec 0 _ s with ⟨e | cands, s'⟩ <;> rfl

theorem outcome_of_refused (hActor : env.actor = .ok (some actor))
    (hListing : env.refuses 0 (env.listing actor) = true) : Outcome env actor rows := by
  obtain ⟨e, hExec⟩ := exec_refused (s := Session.start rows) rfl rfl hListing
  have hCands : env.candidates actor rows = [] := if_pos hListing
  have hPass : env.certRenewalPass rows = (.error e, rows) := by
    have hRun : env.runAutoRenewalOnce (Session.start rows) =
        (.error e, { Session.start rows with aborted := true }) := by
      rw [runAutoRenewalOnce, hActor]
      exact (run_autoRenew _).trans (by rw [hExec])
    rw [certRenewalPass, Session.transact, hRun]
  refine ⟨fun _ => by rw [hPass], ?_, fun _ => ?_, fun tenantId h => by rwa [hPass]⟩
  · rw [summaryNames, hPass, hCands]
    rfl
  · rw [hPass, made, hCands]
    simp [fates, Certificates.keys]

theorem certRenewalPass_outcome (hActor : env.actor = .ok (some actor)) :
    Outcome env actor rows := by
  cases hListing : env.refuses 0 (env.listing actor) with
  | true => exact outcome_of_refused hActor hListing
  | false =>
    have hExec : env.exec 0 (env.listing actor) (Session.start rows) =
        (.ok (env.candidates actor rows), Session.start rows) := by
      have hCands : env.candidates actor rows = _ := if_neg (by simp [hListing])
      rw [hCands]
      exact exec_performed rfl rfl hListing rfl
    obtain ⟨summary, s, hLoop, hLeaves⟩ := @renewCerts_run env actor (env.candidates actor rows) 1
      rows ⟨(env.candidates actor rows).length, [], []⟩ (Session.start rows) rfl rfl fun _ => rfl
    have hPass : env.certRenewalPass rows = (.ok summary, s.result) := by
      have hRun : env.runAutoRenewalOnce (Session.start rows) = (.ok summary, s) := by
        rw [runAutoRenewalOnce, hActor]
        refine (run_autoRenew _).trans ?_
        rw [hExec]
        exact hLoop
      rw [certRenewalPass, Session.transact, hRun]
    refine ⟨fun hAborted => ?_, ?_, fun hNone => ?_, fun tenantId hActive => ?_⟩
    · rw [hPass, Session.result, hLeaves.aborted, if_pos (by simpa using hAborted), hLeaves.committed]
      rfl
    · rw [summaryNames, hPass]
      exact hLeaves.renewed
    · rw [hPass, Session.result, hLeaves.aborted, if_neg (by simpa using hNone)]
      exact hLeaves.keys hNone
    · rw [hPass, Session.result, hLeaves.aborted]
      by_cases hAborted : Fate.aborted ∈ env.fates actor 1 (env.candidates actor rows) rows
      · rw [if_pos (by simpa using hAborted), hLeaves.committed]
        exact hActive
      · rw [if_neg (by simpa using hAborted)]
        exact hLeaves.active hAborted tenantId hActive

theorem newRow_iff (h : Outcome env actor rows)
    (hNone : .aborted ∉ env.fates actor 1 (env.candidates actor rows) rows) (name : String) :
    NewRow rows (env.certRenewalPass rows).2 name ↔
      ∃ row ∈ env.made actor 1 (env.candidates actor rows) rows, row.name = name := by
  have hKeys := h.keys hNone
  obtain ⟨hFresh, -⟩ := @made_fresh env actor (env.candidates actor rows) 1 rows
  constructor
  · rintro ⟨row, hRow, hName, hId⟩
    have hKey : row.key ∈ Certificates.keys (env.certRenewalPass rows).2 :=
      List.mem_map_of_mem hRow
    rw [hKeys, List.mem_append] at hKey
    rcases hKey with hKey | hKey
    · obtain ⟨c, hc, hSame⟩ := List.mem_map.mp hKey
      have hSameId : c.id = row.id := congrArg Prod.fst hSame
      exact absurd (hSameId ▸ List.mem_map_of_mem hc) hId
    · obtain ⟨c, hc, hSame⟩ := List.mem_map.mp hKey
      exact ⟨c, hc, (congrArg (fun k => k.2.1) hSame).trans hName⟩
  · rintro ⟨row, hRow, rfl⟩
    have hKey : row.key ∈ Certificates.keys (env.certRenewalPass rows).2 := by
      rw [hKeys]
      exact List.mem_append_right _ (List.mem_map_of_mem hRow)
    obtain ⟨c, hc, hSame⟩ := List.mem_map.mp hKey
    refine ⟨c, hc, congrArg (fun k => k.2.1) hSame, ?_⟩
    rw [show c.id = row.id from congrArg Prod.fst hSame]
    intro hOld
    obtain ⟨d, hd, hId⟩ := List.mem_map.mp hOld
    have hApart := List.any_eq_false.mp (hFresh row hRow).apart d hd
    exact hApart (by simp [clashes, hId])

theorem not_newRow_self (name : String) : ¬ NewRow rows rows name := by
  rintro ⟨row, hRow, -, hId⟩
  exact hId (List.mem_map_of_mem hRow)

theorem takeWhile_of_not_aborted {fs : List Fate} (h : .aborted ∉ fs) :
    fs.takeWhile (· ≠ .aborted) = fs := by
  rw [List.takeWhile_eq_self_iff]
  intro f hf
  have hOther : f ≠ .aborted := fun hSame => h (hSame ▸ hf)
  simpa using hOther

theorem row?_of_name? {fs : List Fate} (h : ∀ f ∈ fs, f ≠ .aborted ∧ ∀ row, f ≠ .unannounced row) :
    fs.filterMap Fate.name? = (fs.filterMap Fate.row?).map Certificate.name := by
  induction fs with
  | nil => rfl
  | cons f fs ih =>
    obtain ⟨⟨hAborted, hUnannounced⟩, hRest⟩ := List.forall_mem_cons.mp h
    rw [List.filterMap_cons, List.filterMap_cons, ih hRest]
    cases f with
    | failed => rfl
    | aborted => exact absurd rfl hAborted
    | unannounced row => exact absurd rfl (hUnannounced row)
    | renewed row => rfl

theorem names_apart {fs : List Fate} {row other : Certificate}
    (h : (fs.filterMap Fate.row?).Pairwise fun a b => a.name ≠ b.name)
    (hRow : .unannounced row ∈ fs) (hOther : .renewed other ∈ fs) : row.name ≠ other.name := by
  rw [List.pairwise_filterMap] at h
  have hSymm : Std.Symm fun f g : Fate => ∀ a, f.row? = some a → ∀ b, g.row? = some b →
      a.name ≠ b.name := ⟨fun f g hfg a ha b hb => (hfg b hb a ha).symm⟩
  exact h.forall hRow hOther (by simp) row rfl other rfl

theorem sound_of_harmless (hActor : env.actor = .ok (some actor)) (h : env.Harmless actor rows) :
    env.Sound rows := by
  have hOutcome : Outcome env actor rows := certRenewalPass_outcome hActor
  have hOnly : ∀ other, env.actor = .ok (some other) → other = actor := by
    intro other hOther
    rw [hActor] at hOther
    cases hOther
    rfl
  rcases h with hCalm | ⟨hAborted, hAlone⟩
  · have hNone : .aborted ∉ env.fates actor 1 (env.candidates actor rows) rows :=
      fun hMem => (hCalm _ hMem).1 rfl
    have hNames : env.summaryNames rows =
        (env.made actor 1 (env.candidates actor rows) rows).map Certificate.name := by
      rw [hOutcome.names, takeWhile_of_not_aborted hNone, row?_of_name? hCalm, made]
    have hNew : ∀ name, NewRow rows (env.certRenewalPass rows).2 name ↔
        name ∈ env.summaryNames rows := by
      intro name
      rw [newRow_iff hOutcome hNone, hNames, List.mem_map]
    refine ⟨hNew, ?_, hOutcome.active⟩
    intro other hOther name hName
    obtain rfl := hOnly other hOther
    rw [renewedApart_of_calm _ 1 rows rows rfl (fun _ => rfl) hCalm] at hName
    rwa [hNew, hOutcome.names, takeWhile_of_not_aborted hNone]
  · have hAfter := hOutcome.kept hAborted
    have hNil := names_eq_nil rows (env.candidates actor rows) 1 [] (by simp) hAlone
    rw [List.append_nil] at hNil
    have hNames : env.summaryNames rows = [] := by
      rw [hOutcome.names]
      exact List.sublist_nil.mp (hNil ▸ (List.takeWhile_sublist _).filterMap _)
    refine ⟨fun name => ?_, ?_, hOutcome.active⟩
    · rw [hAfter, hNames]
      exact iff_of_false (not_newRow_self name) (by simp)
    · intro other hOther name hName
      obtain rfl := hOnly other hOther
      rw [(renewedApart_eq_nil _ 1).mpr hAlone] at hName
      cases hName

theorem harmless_of_sound (hActor : env.actor = .ok (some actor)) (h : env.Sound rows) :
    env.Harmless actor rows := by
  have hOutcome : Outcome env actor rows := certRenewalPass_outcome hActor
  by_cases hAborted : Fate.aborted ∈ env.fates actor 1 (env.candidates actor rows) rows
  · right
    refine ⟨hAborted, (renewedApart_eq_nil _ 1).mp ?_⟩
    have hNone : ∀ name, name ∉ env.renewedApart actor 1 (env.candidates actor rows) rows := by
      intro name hName
      have hNew := h.independent actor hActor name hName
      rw [hOutcome.kept hAborted] at hNew
      exact not_newRow_self name hNew
    exact List.eq_nil_iff_forall_not_mem.mpr hNone
  · left
    intro f hf
    refine ⟨fun hSame => hAborted (hSame ▸ hf), ?_⟩
    rintro row rfl
    have hNew : NewRow rows (env.certRenewalPass rows).2 row.name :=
      (newRow_iff hOutcome hAborted _).mpr ⟨row, List.mem_filterMap.mpr ⟨_, hf, rfl⟩, rfl⟩
    rw [h.summarised, hOutcome.names, takeWhile_of_not_aborted hAborted, List.mem_filterMap] at hNew
    obtain ⟨f, hRenewed, hName⟩ := hNew
    obtain ⟨-, hNames⟩ := @made_fresh env actor (env.candidates actor rows) 1 rows
    cases f with
    | renewed other => exact names_apart hNames hf hRenewed (Option.some.inj hName).symm
    | failed => cases hName
    | aborted => cases hName
    | unannounced other => cases hName

theorem sound_of_no_actor (h : ∀ actor, env.actor ≠ .ok (some actor)) : env.Sound rows := by
  have hNothing : env.summaryNames rows = [] ∧ (env.certRenewalPass rows).2 = rows := by
    unfold summaryNames certRenewalPass runAutoRenewalOnce
    rcases hActor : env.actor with e | actor
    · exact ⟨rfl, rfl⟩
    · cases actor with
      | none => exact ⟨rfl, rfl⟩
      | some actor => exact absurd hActor (h actor)
  refine ⟨fun name => ?_, fun actor hActor => absurd hActor (h actor), fun tenantId hActive => ?_⟩
  · rw [hNothing.1, hNothing.2]
    exact iff_of_false (not_newRow_self name) (by simp)
  · rwa [hNothing.2]

/-- A pass keeps its promise exactly when its candidates cannot harm one another. -/
theorem certRenewalPass_sound (env : PassEnv) (rows : List Certificate) :
    env.Sound rows ↔ ∀ actor, env.actor = .ok (some actor) → env.Harmless actor rows := by
  constructor
  · exact fun h actor hActor => harmless_of_sound hActor h
  · intro h
    by_cases hSome : ∃ actor, env.actor = .ok (some actor)
    · obtain ⟨actor, hActor⟩ := hSome
      exact sound_of_harmless hActor (h actor hActor)
    · exact sound_of_no_actor fun actor hActor => hSome ⟨actor, hActor⟩

end PassEnv

def certFixture (id certType name : String) (isActive : Bool) (notAfter : Timestamp) :
    Certificate where
  id := id
  certType := certType
  name := name
  commonName := some name
  notBefore := some 0
  notAfter := some notAfter
  keySize := some 2048
  subjectAltNames := none
  pemData := "PEM"
  keyPemEncrypted := some "KEY"
  chainPem := none
  isActive := isActive
  imported := false
  enabled := true
  tenantId := "default"

/-- A pass in which nothing outside the database fails. -/
def passFixture : PassEnv where
  lib := ⟨fun _ => false, fun _ => "20260601", fun _ => "validation error"⟩
  sqlNow := 0
  now := 0
  thresholdDays := 30
  actor := .ok (some ⟨"admin", "default"⟩)
  external _ c := match c with
    | .generateCaKeypair _ => .ok ("NEW PEM", "NEW KEY")
    | .generateServerKeypair .. => .ok ("NEW PEM", "NEW KEY")
    | .parseCertMetadata _ => .ok ⟨some "radius", 0, 100, some 2048⟩
    | .validatePrivateKeyPem _ => .ok ()
    | .writeCertFiles .. => .ok ()
    | .encryptSecret plaintext => .ok plaintext
    | .decryptSecret ciphertext => .ok ciphertext
    | .publishFreeradiusApplyForCert .. => .ok ()
    | _ => .error ⟨"TypeError", "not a call"⟩
  sqlFails _ _ := none
  newId turn := if turn = 1 then "n1" else "n2"
  uniqueViolation := ⟨"IntegrityError", "duplicate key value violates unique constraint"⟩
  failedTransaction := ⟨"DBAPIError", "current transaction is aborted"⟩

/-- The second of two candidates has a twin from an earlier pass. -/
def twinFixture : List Certificate :=
  [certFixture "ca" "ca" "root" true 1000, certFixture "a" "server" "radius-a" true 10,
    certFixture "b" "server" "radius-b" true 20,
    certFixture "c" "server" "radius-b-renewed-20260601" false 30]

/-- The summary lists the first as renewed, and the commit keeps nothing of it. -/
theorem twin_undoes_renewal : ¬ passFixture.Sound twinFixture := by
  intro h
  have hNames : "radius-a-renewed-20260601" ∈ passFixture.summaryNames twinFixture := by
    decide +kernel
  have hRows : (passFixture.certRenewalPass twinFixture).2 = twinFixture := by decide +kernel
  have hNew := (h.summarised _).mpr hNames
  rw [hRows] at hNew
  exact PassEnv.not_newRow_self _ hNew

end OpenRadiusWeb.Certificates
