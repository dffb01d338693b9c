import OpenRadiusWeb.Gateway.Settings
import OpenRadiusWeb.Lib.Transcript

/-! # Secret settings stay secret

What may be known of a row leaves the value of a secret one out, and the value sent for a
secret row is a secret too. Two runs that differ in such values only are the same to see
(answers, audit log and messages) exactly when the rows that one tenant sees under one key
agree on whether they are secret.
-/

namespace OpenRadiusWeb.Settings

open Transcript (transcript final)

variable {Collated : Type} {host : Host Collated}

/-- What may be known of a row. -/
def Entry.disclosed (entry : Entry) : Entry :=
  if entry.secret then { entry with settingValue := none } else entry

def Setting.disclosed (row : Setting) : Setting := { row with toEntry := row.toEntry.disclosed }

/-- Everything but the value. -/
def Setting.label (row : Setting) : Setting := { row with settingValue := none }

namespace Setting

theorem disclosed_settingKey (row : Setting) : row.disclosed.settingKey = row.settingKey := by
  unfold disclosed Entry.disclosed
  split <;> rfl

theorem label_disclosed (row : Setting) : row.disclosed.label = row.label := by
  unfold disclosed Entry.disclosed
  split <;> rfl

end Setting

/-- The rows look the same. -/
def SameLook (rows rows' : List Setting) : Prop :=
  rows'.map Setting.disclosed = rows.map Setting.disclosed

theorem SameLook.labels {rows rows' : List Setting} (h : SameLook rows rows') :
    rows'.map Setting.label = rows.map Setting.label := by
  have hLabels : ∀ rows : List Setting,
      rows.map Setting.label = (rows.map Setting.disclosed).map Setting.label := by
    intro rows
    rw [List.map_map]
    exact List.map_congr_left fun row _ => (Setting.label_disclosed row).symm
  rw [hLabels rows, hLabels rows', h]

/-! ## Lists -/

section Lists

variable [LinearOrder Collated] {rows rows' : List Setting}

theorem SameLook.filter (h : SameLook rows rows') {p : Setting → Bool}
    (hp : ∀ row, p row.disclosed = p row) : SameLook (rows.filter p) (rows'.filter p) := by
  have hCommutes : ∀ rows : List Setting,
      (rows.filter p).map Setting.disclosed = (rows.map Setting.disclosed).filter p := by
    intro rows
    rw [List.filter_map]
    exact congrArg _ (List.filter_congr fun row _ => (hp row).symm)
  exact (hCommutes rows').trans ((congrArg _ h).trans (hCommutes rows).symm)

theorem SameLook.sortBy {β : Type} [LinearOrder β] (h : SameLook rows rows') (key : Setting → β)
    (hKey : ∀ row, key row.disclosed = key row) :
    SameLook (Sorting.sortBy key rows) (Sorting.sortBy key rows') := by
  have hCommutes : ∀ rows : List Setting, (Sorting.sortBy key rows).map Setting.disclosed =
      Sorting.sortBy key (rows.map Setting.disclosed) := by
    intro rows
    apply List.map_insertionSort
    intro a _ b _
    rw [hKey, hKey]
  exact (hCommutes rows').trans ((congrArg _ h).trans (hCommutes rows).symm)

theorem maskSensitive_disclosed (row : Setting) :
    maskSensitive row.disclosed.toSelected = maskSensitive row.toSelected := by
  unfold Setting.disclosed Entry.disclosed
  split
  · rename_i hSecret
    simp only [Entry.secret] at hSecret
    simp [maskSensitive, Entry.secret, hSecret]
  · rfl

theorem SameLook.masked (h : SameLook rows rows') :
    (rows'.map Setting.toSelected).map maskSensitive = (rows.map Setting.toSelected).map maskSensitive := by
  have hMask : ∀ rows : List Setting, (rows.map Setting.toSelected).map maskSensitive =
      (rows.map Setting.disclosed).map fun row => maskSensitive row.toSelected := by
    intro rows
    rw [List.map_map, List.map_map]
    exact List.map_congr_left fun row _ => (maskSensitive_disclosed row).symm
  rw [hMask rows, hMask rows', h]

theorem SameLook.getAll (host : Host Collated) (h : SameLook rows rows') (tenantId : String) :
    getAllSettingsGrouped host rows' tenantId = getAllSettingsGrouped host rows tenantId := by
  have hSorted := (h.filter (p := Setting.visibleTo tenantId) fun _ => rfl).sortBy
    (fun row => toLex (host.collate row.category.val, host.collate row.settingKey.val))
    fun row => by rw [Setting.disclosed_settingKey]; rfl
  rw [getAllSettingsGrouped, getAllSettingsGrouped, listAllSettings, listAllSettings, hSorted.masked]

theorem listByCategory_eq (rows : List Setting) (tenantId category : String) :
    listSettingsByCategory host rows tenantId category =
      (textParameter host category).map fun category =>
        (Sorting.sortBy (fun row => host.collate row.settingKey.val)
          (rows.filter fun row => row.category == category && row.visibleTo tenantId)).map
            Setting.toSelected := by
  rw [listSettingsByCategory]
  cases textParameter host category <;> rfl

theorem getByCategory_eq (rows : List Setting) (tenantId category : String) :
    getSettingsByCategory host rows tenantId category =
      ((listSettingsByCategory host rows tenantId category).map (List.map maskSensitive)).bind
        fun found => if found = [] then .error (notFoundError "settings category" category)
          else .ok found := by
  rw [getSettingsByCategory]
  cases listSettingsByCategory host rows tenantId category with
  | error e => rfl
  | ok found => cases found <;> rfl

theorem SameLook.getByCategory (host : Host Collated) (h : SameLook rows rows') (tenantId category : String) :
    getSettingsByCategory host rows' tenantId category =
      getSettingsByCategory host rows tenantId category := by
  rw [getByCategory_eq, getByCategory_eq, listByCategory_eq, listByCategory_eq]
  cases textParameter host category with
  | error e => rfl
  | ok category =>
    have hSorted := (h.filter (p := fun row => row.category == category && row.visibleTo tenantId)
      fun _ => rfl).sortBy (fun row => host.collate row.settingKey.val)
        fun row => by rw [Setting.disclosed_settingKey]
    simp only [Except.map]
    rw [hSorted.masked]

end Lists

/-! ## Which keys are secret -/

/-- The row is one that the tenant has under the key. -/
def Setting.Named (row : Setting) (tenantId category key : String) : Prop :=
  row.category.val = category ∧ row.settingKey.val = key ∧ row.visibleTo tenantId = true

/-- What a tenant sees under one key is all secret, or none of it is. -/
def Consistent (rows : List Setting) : Prop :=
  ∀ row ∈ rows, ∀ row' ∈ rows, ∀ tenantId category key, row.Named tenantId category key →
    row'.Named tenantId category key → row.secret = row'.secret

/-- The tenant has a secret row under the key. -/
def SecretKey (rows : List Setting) (tenantId category key : String) : Prop :=
  ∃ row ∈ rows, row.Named tenantId category key ∧ row.secret = true

section Labels

theorem named_of_label {row row' : Setting} (h : row'.label = row.label) {tenantId category key : String}
    (hNamed : row.Named tenantId category key) : row'.Named tenantId category key := by
  have hSame : row'.label.Named tenantId category key := by
    rw [h]
    exact hNamed
  exact hSame

theorem secret_of_label {row row' : Setting} (h : row'.label = row.label) :
    row'.secret = row.secret := by
  have hSame : row'.label.secret = row.label.secret := by rw [h]
  exact hSame

variable {rows base : List Setting} (hLabels : rows.map Setting.label = base.map Setting.label)

include hLabels

theorem exists_labelled {row : Setting} (hRow : row ∈ rows) : ∃ row' ∈ base, row'.label = row.label := by
  have hMem : row.label ∈ base.map Setting.label := hLabels ▸ List.mem_map_of_mem hRow
  exact List.mem_map.mp hMem

theorem secret_of_key (hConsistent : Consistent base) {tenantId category key : String}
    (hSecret : SecretKey base tenantId category key) {row : Setting} (hRow : row ∈ rows)
    (hNamed : row.Named tenantId category key) : row.secret = true := by
  obtain ⟨secret, hMem, hKey, hTrue⟩ := hSecret
  obtain ⟨row', hMem', hLabel⟩ := exists_labelled hLabels hRow
  have hEqual := hConsistent row' hMem' secret hMem tenantId category key
    (named_of_label hLabel hNamed) hKey
  exact ((secret_of_label hLabel).symm.trans hEqual).trans hTrue

theorem SecretKey.labelled {tenantId category key : String} (h : SecretKey rows tenantId category key) :
    SecretKey base tenantId category key := by
  obtain ⟨row, hMem, hKey, hTrue⟩ := h
  obtain ⟨row', hMem', hLabel⟩ := exists_labelled hLabels hMem
  exact ⟨row', hMem', named_of_label hLabel hKey, (secret_of_label hLabel).trans hTrue⟩

theorem Consistent.labelled (h : Consistent base) : Consistent rows := by
  intro row hRow row' hRow' tenantId category key hNamed hNamed'
  obtain ⟨q, hq, hLabel⟩ := exists_labelled hLabels hRow
  obtain ⟨q', hq', hLabel'⟩ := exists_labelled hLabels hRow'
  exact ((secret_of_label hLabel).symm.trans (h q hq q' hq' tenantId category key
    (named_of_label hLabel hNamed) (named_of_label hLabel' hNamed'))).trans (secret_of_label hLabel')

end Labels

/-! ## An update -/

section Update

/-- What an UPDATE makes of a row. -/
def assign (tenantId : String) (value category key : Text) (row : Setting) : Setting :=
  if row.category == category && row.settingKey == key && row.visibleTo tenantId then
    { row with settingValue := some value }
  else row

theorem updateSettingValue_eq (rows : List Setting) (tenantId category key value : String) :
    updateSettingValue host rows tenantId category key value =
      (textParameter host value).bind fun value => (textParameter host category).bind fun category =>
        (textParameter host key).map fun key => rows.map (assign tenantId value category key) := by
  rw [updateSettingValue]
  cases textParameter host value <;> cases textParameter host category <;>
    cases textParameter host key <;> rfl

theorem textParameter_val {text : String} {value : Text} (h : textParameter host text = .ok value) :
    value.val = text := by
  unfold textParameter at h
  split at h
  · cases h
    rfl
  · cases h

theorem label_assign (tenantId : String) (value category key : Text) (row : Setting) :
    (assign tenantId value category key row).label = row.label := by
  unfold assign
  split <;> rfl

theorem assign_disclosed (tenantId : String) (value category key : Text) (row : Setting) :
    (assign tenantId value category key row.disclosed).disclosed =
      (assign tenantId value category key row).disclosed := by
  have hSame : (row.disclosed.category == category && row.disclosed.settingKey == key &&
      row.disclosed.visibleTo tenantId) =
        (row.category == category && row.settingKey == key && row.visibleTo tenantId) := by
    rw [Setting.disclosed_settingKey]
    rfl
  unfold assign
  rw [hSame]
  split
  all_goals
    unfold Setting.disclosed Entry.disclosed Entry.secret
    cases hSecret : row.isSecret.getD false <;> simp [hSecret]

theorem assign_secret {tenantId : String} {value category key : Text} {row : Setting}
    (h : row.Named tenantId category.val key.val → row.secret = true) :
    (assign tenantId value category key row).disclosed = row.disclosed := by
  unfold assign
  split
  · rename_i hNamed
    simp only [Bool.and_eq_true, beq_iff_eq] at hNamed
    have hSecret := h ⟨congrArg Subtype.val hNamed.1.1, congrArg Subtype.val hNamed.1.2, hNamed.2⟩
    simp only [Entry.secret] at hSecret
    simp [Setting.disclosed, Entry.disclosed, Entry.secret, hSecret]
  · rfl

theorem SameLook.assign {rows rows' : List Setting} (h : SameLook rows rows') (tenantId : String)
    (value category key : Text) : SameLook (rows.map (assign tenantId value category key))
      (rows'.map (assign tenantId value category key)) := by
  have hAssign : ∀ rows : List Setting,
      (rows.map (Settings.assign tenantId value category key)).map Setting.disclosed =
        (rows.map Setting.disclosed).map fun row =>
          (Settings.assign tenantId value category key row).disclosed := by
    intro rows
    rw [List.map_map, List.map_map]
    exact List.map_congr_left fun row _ => (assign_disclosed tenantId value category key row).symm
  exact (hAssign rows').trans ((congrArg _ h).trans (hAssign rows).symm)

theorem sameLook_secret {rows : List Setting} {tenantId : String} {category key : Text} (value : Text)
    (h : ∀ row ∈ rows, row.Named tenantId category.val key.val → row.secret = true) :
    SameLook rows (rows.map (assign tenantId value category key)) := by
  rw [SameLook, List.map_map]
  exact List.map_congr_left fun row hRow => assign_secret (h row hRow)

/-! ## The loop over the items -/

/-- The rows before an update, by key. -/
def rowsByKey (rows : List Setting) (tenantId : String) (category : Text) (keys : List Text) : Dict Entry :=
  (rows.filter fun row =>
    row.category == category && keys.contains row.settingKey && row.visibleTo tenantId).foldl
      (fun found row => found.set row.settingKey.val row.toEntry) []

theorem lookup_eq (rows : List Setting) (tenantId category : String) (keys : List String) :
    lookupSettingsForAudit host rows tenantId category keys =
      (textParameter host category).bind fun category =>
        (keys.mapM (textParameter host)).map (rowsByKey rows tenantId category) := by
  rw [lookupSettingsForAudit]
  cases textParameter host category with
  | error e => rfl
  | ok category => cases h : keys.mapM (textParameter host) <;> simp only [bind, Except.bind] <;> rfl

theorem SameLook.rowsByKey {rows rows' : List Setting} (h : SameLook rows rows') (tenantId : String)
    (category : Text) (keys : List Text) :
    (Settings.rowsByKey rows' tenantId category keys).mapValues Entry.disclosed =
      (Settings.rowsByKey rows tenantId category keys).mapValues Entry.disclosed := by
  have hFound := h.filter (p := fun row =>
    row.category == category && keys.contains row.settingKey && row.visibleTo tenantId)
    fun row => by rw [Setting.disclosed_settingKey]; rfl
  have hFold : ∀ rows : List Setting,
      rows.foldl (fun found row => Dict.set found row.settingKey.val row.toEntry.disclosed) [] =
        (rows.map Setting.disclosed).foldl
          (fun found row => Dict.set found row.settingKey.val row.toEntry) [] := by
    intro rows
    simp only [List.foldl_map, Setting.disclosed_settingKey]
    rfl
  rw [Settings.rowsByKey, Settings.rowsByKey, Dict.mapValues_foldl_set, Dict.mapValues_foldl_set]
  exact (hFold _).trans ((congrArg _ hFound).trans (hFold _).symm)

theorem named_of_rowsByKey {rows : List Setting} {tenantId key : String} {category : Text}
    {keys : List Text} {old : Entry} (h : (rowsByKey rows tenantId category keys).get? key = some old) :
    ∃ row ∈ rows, row.Named tenantId category.val key ∧ row.toEntry = old := by
  obtain hNone | ⟨row, hRow, hItem⟩ := Dict.mem_foldl_set (Dict.mem_of_get? h)
  · cases hNone
  · obtain ⟨hMem, hKeep⟩ := List.mem_filter.mp hRow
    simp only [Bool.and_eq_true, beq_iff_eq] at hKeep
    simp only [Prod.mk.injEq] at hItem
    exact ⟨row, hMem, ⟨congrArg Subtype.val hKeep.1.1, hItem.1.symm, hKeep.2⟩, hItem.2.symm⟩

theorem change_disclosed (old : Entry) (key newValue : String) :
    change old.disclosed key newValue = change old key newValue := by
  unfold Entry.disclosed
  split
  · rename_i hSecret
    simp only [Entry.secret] at hSecret
    simp [change, Entry.secret, hSecret]
  · rfl

theorem change_secret {old : Entry} (h : old.secret = true) (key newValue newValue' : String) :
    change old key newValue' = change old key newValue := by
  simp [change, h]

/-- What may be known of an update that has been made. -/
def disclosedUpdate (r : List Setting × List String × List Change) :
    List Setting × List String × List Change := (r.1.map Setting.disclosed, r.2)

theorem updateEach_none {tenantId category key value : String} {existing : Dict Entry}
    (h : existing.get? key = none) (rest : Dict String) (rows : List Setting) :
    updateEach host tenantId category existing ((key, value) :: rest) rows =
      updateEach host tenantId category existing rest rows := by
  rw [updateEach, h]

theorem updateEach_some {tenantId category key value : String} {existing : Dict Entry} {old : Entry}
    (h : existing.get? key = some old) (rest : Dict String) (rows : List Setting) :
    updateEach host tenantId category existing ((key, value) :: rest) rows =
      (updateSettingValue host rows tenantId category key value).bind fun rows =>
        (updateEach host tenantId category existing rest rows).map fun r =>
          (r.1, key :: r.2.1, change old key value :: r.2.2) := by
  rw [updateEach, h]
  cases hUpdate : updateSettingValue host rows tenantId category key value with
  | error e => rfl
  | ok rows =>
    change _ = (updateEach host tenantId category existing rest rows).map _
    cases hRest : updateEach host tenantId category existing rest rows <;>
      simp only [bind, Except.bind, hRest] <;> rfl

theorem labels_updateEach {tenantId category : String} {existing : Dict Entry} {items : Dict String}
    {rows : List Setting} {r : List Setting × List String × List Change}
    (h : updateEach host tenantId category existing items rows = .ok r) :
    r.1.map Setting.label = rows.map Setting.label := by
  induction items generalizing rows r with
  | nil =>
    cases h
    rfl
  | cons item rest ih =>
    obtain ⟨key, value⟩ := item
    cases hOld : existing.get? key with
    | none =>
      rw [updateEach_none hOld] at h
      exact ih h
    | some old =>
      rw [updateEach_some hOld, updateSettingValue_eq] at h
      cases hValue : textParameter host value with
      | error e => simp [hValue, Except.bind] at h
      | ok text =>
        cases hCategory : textParameter host category with
        | error e => simp [hValue, hCategory, Except.bind] at h
        | ok category' =>
          cases hKey : textParameter host key with
          | error e => simp [hValue, hCategory, hKey, Except.bind, Except.map] at h
          | ok key' =>
            simp only [hValue, hCategory, hKey, Except.bind, Except.map] at h
            cases hRest : updateEach host tenantId category existing rest
                (rows.map (assign tenantId text category' key')) with
            | error e => simp [hRest] at h
            | ok r' =>
              simp only [hRest, Except.ok.injEq] at h
              rw [← h, ih hRest, List.map_map]
              exact List.map_congr_left fun row _ => label_assign tenantId text category' key' row

def Storable (text : String) : Prop := text.toList.all (· != '\x00') = true

theorem textParameter_of_storable {text : String} (h : Storable text) :
    textParameter host text = .ok ⟨text, h⟩ := dif_pos h

/-- The same item of a body, but for the value of a secret. -/
def SameItem (rows : List Setting) (tenantId category : String) (item item' : String × String) : Prop :=
  item'.1 = item.1 ∧ (item'.2 = item.2 ∨
    SecretKey rows tenantId category item.1 ∧ Storable item.2 ∧ Storable item'.2)

theorem map_recorded {x x' : Except PyException (List Setting × List String × List Change)}
    (h : x'.map disclosedUpdate = x.map disclosedUpdate) {key key' : String} {c c' : Change}
    (hKey : key' = key) (hChange : c' = c) :
    (x'.map fun r => (r.1, key' :: r.2.1, c' :: r.2.2)).map disclosedUpdate =
      (x.map fun r => (r.1, key :: r.2.1, c :: r.2.2)).map disclosedUpdate := by
  subst hKey hChange
  cases x <;> cases x' <;> simp_all [Except.map, disclosedUpdate]

theorem updateEach_alike (host : Host Collated) {base : List Setting} (hConsistent : Consistent base)
    {tenantId category : String} {existing existing' : Dict Entry}
    (hExisting : existing'.mapValues Entry.disclosed = existing.mapValues Entry.disclosed)
    (hOldSecret : ∀ key old, existing.get? key = some old → SecretKey base tenantId category key →
      old.secret = true)
    {items items' : Dict String} (hItems : List.Forall₂ (SameItem base tenantId category) items items')
    {rows rows' : List Setting} (hLook : SameLook rows rows')
    (hLabels : rows.map Setting.label = base.map Setting.label) :
    (updateEach host tenantId category existing' items' rows').map disclosedUpdate =
      (updateEach host tenantId category existing items rows).map disclosedUpdate := by
  induction hItems generalizing rows rows' with
  | nil => exact congrArg (fun rows => Except.ok (rows, [], [])) hLook
  | @cons item item' rest rest' hItem hRest ih =>
    obtain ⟨key, value⟩ := item
    obtain ⟨key', value'⟩ := item'
    obtain ⟨hKey, hValue⟩ := hItem
    obtain rfl : key' = key := hKey
    have hOlds : (existing'.get? key').map Entry.disclosed = (existing.get? key').map Entry.disclosed := by
      rw [← Dict.get?_mapValues, hExisting, Dict.get?_mapValues]
    cases hOld : existing.get? key' with
    | none =>
      have hOld' : existing'.get? key' = none := by simpa [hOld] using hOlds
      rw [updateEach_none hOld, updateEach_none hOld']
      exact ih hLook hLabels
    | some old =>
      rw [hOld] at hOlds
      obtain ⟨old', hOld', hDisclosed⟩ := Option.map_eq_some_iff.mp hOlds
      have hChange : ∀ v, change old' key' v = change old key' v := by
        intro v
        rw [← change_disclosed old', hDisclosed, change_disclosed]
      rw [updateEach_some hOld, updateEach_some hOld', updateSettingValue_eq, updateSettingValue_eq]
      have hAssigned : ∀ text text' category' key'' : Text,
          SameLook (rows.map (assign tenantId text category' key''))
            (rows'.map (assign tenantId text' category' key'')) →
          (updateEach host tenantId category existing' rest'
            (rows'.map (assign tenantId text' category' key''))).map disclosedUpdate =
          (updateEach host tenantId category existing rest
            (rows.map (assign tenantId text category' key''))).map disclosedUpdate := by
        intro text text' category' key'' hNext
        refine ih hNext ?_
        rw [← hLabels, List.map_map]
        exact List.map_congr_left fun row _ => label_assign tenantId text category' key'' row
      obtain hSame | ⟨hSecret, hStorable, hStorable'⟩ := hValue
      · obtain rfl : value' = value := hSame
        cases textParameter host value' with
        | error e => rfl
        | ok text =>
          cases textParameter host category with
          | error e => rfl
          | ok category' =>
            cases textParameter host key' with
            | error e => rfl
            | ok key'' =>
              exact map_recorded (hAssigned _ _ _ _ (hLook.assign tenantId text category' key'')) rfl
                (hChange value')
      · rw [textParameter_of_storable hStorable, textParameter_of_storable hStorable']
        cases hCategory : textParameter host category with
        | error e => rfl
        | ok category' =>
          cases hText : textParameter host key' with
          | error e => rfl
          | ok key'' =>
            obtain rfl := textParameter_val hCategory
            obtain rfl := textParameter_val hText
            have hLook₁ := sameLook_secret ⟨value, hStorable⟩ fun row hRow =>
              secret_of_key hLabels hConsistent hSecret hRow
            have hLook₂ := sameLook_secret ⟨value', hStorable'⟩ fun row hRow =>
              secret_of_key (hLook.labels.trans hLabels) hConsistent hSecret hRow
            refine map_recorded (hAssigned _ _ _ _ ?_) rfl
              ((hChange value').trans (change_secret (hOldSecret _ _ hOld hSecret) _ _ _))
            exact (hLook₂.trans hLook).trans hLook₁.symm

end Update

/-! ## Requests -/

/-- The same request, but for the values of secrets. -/
inductive SameRequest (rows : List Setting) : Request → Request → Prop
  | same (request : Request) : SameRequest rows request request
  | update {user : User} {category : String} {body body' : SettingsUpdate}
      (h : List.Forall₂ (SameItem rows user.tenantId category) body.settings body'.settings) :
      SameRequest rows (.updateSettings user category body) (.updateSettings user category body')

structure SameCall (rows : List Setting) (call call' : Call) : Prop where
  request : SameRequest rows call.request call'.request
  clientIp : call'.clientIp = call.clientIp
  auditFails : call'.auditFails = call.auditFails
  publishFails : call'.publishFails = call.publishFails

/-- States that look the same, on the rows that were there at first. -/
structure LooksAlike (base : List Setting) (s s' : State) : Prop where
  rows : SameLook s.rows s'.rows
  labels : s.rows.map Setting.label = base.map Setting.label
  auditLog : s'.auditLog = s.auditLog
  published : s'.published = s.published

section Requests

variable {base rows rows' : List Setting} {tenantId category : String} {body body' : SettingsUpdate}

theorem SameItem.refl (item : String × String) : SameItem base tenantId category item item :=
  ⟨rfl, .inl rfl⟩

theorem updateSettingsBatch_eq (rows : List Setting) (tenantId category : String) (body : SettingsUpdate) :
    updateSettingsBatch host rows tenantId category body =
      (lookupSettingsForAudit host rows tenantId category body.settings.keys).bind fun existing =>
        (updateEach host tenantId category existing body.settings rows).bind fun r =>
          if r.2.1 = [] then .error noValidKeys else .ok r := by
  rw [updateSettingsBatch]
  cases lookupSettingsForAudit host rows tenantId category body.settings.keys with
  | error e => rfl
  | ok existing =>
    simp only [bind, Except.bind]
    cases updateEach host tenantId category existing body.settings rows with
    | error e => rfl
    | ok r =>
      obtain ⟨rows, keys, changes⟩ := r
      cases keys <;> rfl

theorem updateSettingsBatch_alike (host : Host Collated) (hConsistent : Consistent base)
    (hLook : SameLook rows rows') (hLabels : rows.map Setting.label = base.map Setting.label)
    (hBody : List.Forall₂ (SameItem base tenantId category) body.settings body'.settings) :
    (updateSettingsBatch host rows' tenantId category body').map disclosedUpdate =
      (updateSettingsBatch host rows tenantId category body).map disclosedUpdate := by
  have hKeys : body'.settings.keys = body.settings.keys := by
    have hFirst : List.Forall₂ (fun item item' : String × String => item.1 = item'.1)
        body.settings body'.settings := hBody.imp fun _ _ h => h.1.symm
    exact (List.forall₂_eq_eq_eq ▸ List.forall₂_map_left_iff.mpr
      (List.forall₂_map_right_iff.mpr hFirst) : body.settings.keys = body'.settings.keys).symm
  rw [updateSettingsBatch_eq, updateSettingsBatch_eq, lookup_eq, lookup_eq, hKeys]
  cases hCategory : textParameter host category with
  | error e => rfl
  | ok text =>
    obtain rfl := textParameter_val hCategory
    cases body.settings.keys.mapM (textParameter host) with
    | error e => rfl
    | ok keys =>
      have hOldSecret : ∀ key old, (rowsByKey rows tenantId text keys).get? key = some old →
          SecretKey base tenantId text.val key → old.secret = true := by
        intro key old hOld hSecret
        obtain ⟨row, hRow, hNamed, rfl⟩ := named_of_rowsByKey hOld
        exact secret_of_key hLabels hConsistent hSecret hRow hNamed
      have hEach := updateEach_alike host hConsistent (hLook.rowsByKey tenantId text keys)
        hOldSecret hBody hLook hLabels
      simp only [Except.bind, Except.map]
      revert hEach
      cases updateEach host tenantId text.val (rowsByKey rows' tenantId text keys) body'.settings rows' <;>
        cases updateEach host tenantId text.val (rowsByKey rows tenantId text keys) body.settings rows
      · exact id
      · exact fun hEach => nomatch hEach
      · exact fun hEach => nomatch hEach
      · rename_i r' r
        intro hEach
        obtain ⟨rows₁', keys', changes'⟩ := r'
        obtain ⟨rows₁, keys, changes⟩ := r
        simp only [Except.map, disclosedUpdate, Except.ok.injEq, Prod.mk.injEq] at hEach
        obtain ⟨hRows, rfl, rfl⟩ := hEach
        cases keys' with
        | nil => rfl
        | cons key keys => exact congrArg (fun rows => Except.ok (rows, key :: keys, changes')) hRows

theorem labels_updateSettingsBatch {r : List Setting × List String × List Change}
    (h : updateSettingsBatch host rows tenantId category body = .ok r) :
    r.1.map Setting.label = rows.map Setting.label := by
  rw [updateSettingsBatch_eq] at h
  obtain ⟨existing, -, hUpdate⟩ := Except.ok_of_bind h
  obtain ⟨r', hEach, hDone⟩ := Except.ok_of_bind hUpdate
  split at hDone
  · cases hDone
  · cases hDone
    exact labels_updateEach hEach

variable {call call' : Call} {s s' : State}

theorem updateRoute_alike (hConsistent : Consistent base) (h : LooksAlike base s s')
    (hClientIp : call'.clientIp = call.clientIp) (hAudit : call'.auditFails = call.auditFails)
    {user : User} (hBody : List.Forall₂ (SameItem base user.tenantId category) body.settings body'.settings) :
    (transact s' (updateRoute host call' user category body' s')).1 =
        (transact s (updateRoute host call user category body s)).1 ∧
      LooksAlike base (transact s (updateRoute host call user category body s)).2
        (transact s' (updateRoute host call' user category body' s')).2 := by
  have hBatch := updateSettingsBatch_alike host hConsistent h.rows h.labels hBody
  unfold updateRoute
  rw [hAudit]
  cases requireAdmin user with
  | error e => exact ⟨rfl, h⟩
  | ok u =>
    revert hBatch
    cases hDone' : updateSettingsBatch host s'.rows user.tenantId category body' with
    | error e' =>
      cases hDone : updateSettingsBatch host s.rows user.tenantId category body with
      | error e =>
        intro hBatch
        cases hBatch
        exact ⟨rfl, h⟩
      | ok r => exact fun hBatch => nomatch hBatch
    | ok r' =>
      cases hDone : updateSettingsBatch host s.rows user.tenantId category body with
      | error e => exact fun hBatch => nomatch hBatch
      | ok r =>
        intro hBatch
        obtain ⟨rows', keys', changes'⟩ := r'
        obtain ⟨rows, keys, changes⟩ := r
        simp only [Except.map, disclosedUpdate, Except.ok.injEq, Prod.mk.injEq] at hBatch
        obtain ⟨hRows, rfl, rfl⟩ := hBatch
        cases outcome call.auditFails with
        | error e => exact ⟨rfl, h⟩
        | ok u =>
          refine ⟨rfl, hRows, (labels_updateSettingsBatch hDone).trans h.labels, ?_, h.published⟩
          change s'.auditLog ++ [_] = s.auditLog ++ [_]
          rw [h.auditLog]
          simp only [auditEntry, hClientIp]

theorem restartRoute_alike (h : LooksAlike base s s') (hClientIp : call'.clientIp = call.clientIp)
    (hAudit : call'.auditFails = call.auditFails) (hPublish : call'.publishFails = call.publishFails)
    (user : User) (serviceName : String) :
    (restartRoute call' user serviceName s').1 = (restartRoute call user serviceName s).1 ∧
      LooksAlike base (restartRoute call user serviceName s).2 (restartRoute call' user serviceName s').2 := by
  have hEntry : auditEntry user call' = auditEntry user call := by
    unfold auditEntry
    rw [hClientIp]
  unfold restartRoute restartGateway restartBackground
  rw [hAudit, hPublish, hEntry, h.auditLog, h.published]
  cases requireAdmin user with
  | error e => exact ⟨rfl, h⟩
  | ok u =>
    simp only
    split
    · cases outcome call.auditFails with
      | error e => exact ⟨rfl, h⟩
      | ok u => exact ⟨rfl, h.rows, h.labels, rfl, rfl⟩
    · cases restartTopic serviceName with
      | error e => exact ⟨rfl, h⟩
      | ok topic =>
        cases call.publishFails with
        | some e => exact ⟨rfl, h⟩
        | none =>
          cases call.auditFails with
          | some e => exact ⟨rfl, h.rows, h.labels, rfl, rfl⟩
          | none => exact ⟨rfl, h.rows, h.labels, rfl, rfl⟩

/-- One request on states that look the same. -/
theorem handle_alike [LinearOrder Collated] (hConsistent : Consistent base) (h : LooksAlike base s s')
    (hCall : SameCall base call call') :
    (handle host call' s').1 = (handle host call s).1 ∧
      LooksAlike base (handle host call s).2 (handle host call' s').2 := by
  obtain ⟨request, clientIp, auditFails, publishFails⟩ := call
  obtain ⟨request', clientIp', auditFails', publishFails'⟩ := call'
  obtain ⟨hRequest, hClientIp, hAudit, hPublish⟩ := hCall
  have hSame : ∀ items : Dict String, ∀ tenantId category,
      List.Forall₂ (SameItem base tenantId category) items items :=
    fun items _ _ => List.forall₂_same.mpr fun item _ => .refl item
  simp only at hRequest
  cases hRequest with
  | update hBody => exact updateRoute_alike hConsistent h hClientIp hAudit hBody
  | same =>
    cases request with
    | getAllSettings user =>
      have hAll := h.rows.getAll host user.tenantId
      exact ⟨congrArg (fun c => Except.ok (Response.categories c)) hAll, h⟩
    | getSettingsByCategory user category =>
      have hFound := h.rows.getByCategory host user.tenantId category
      exact ⟨congrArg (Except.map (Response.category category)) hFound, h⟩
    | updateSettings user category body =>
      exact updateRoute_alike hConsistent h hClientIp hAudit (hSame _ _ _)
    | restartService user serviceName =>
      exact restartRoute_alike h hClientIp hAudit hPublish user serviceName

end Requests

/-! ## One setting -/

/-- One value for one key. -/
def oneSetting (key value : String) : SettingsUpdate :=
  ⟨[(key, value)], List.cons_ne_nil _ _, List.nodup_singleton key⟩

theorem updateSettingsBatch_one (host : Host Collated) {rows : List Setting} {tenantId : String} {row : Setting}
    (hRow : row ∈ rows) (hVisible : row.visibleTo tenantId = true) (value : Text) :
    ∃ update, updateSettingsBatch host rows tenantId row.category.val
      (oneSetting row.settingKey.val value.val) =
        .ok (rows.map (assign tenantId value row.category row.settingKey), update) := by
  have hKeys : (oneSetting row.settingKey.val value.val).settings.keys.mapM (textParameter host) =
      .ok [row.settingKey] := by
    change [row.settingKey.val].mapM (textParameter host) = _
    rw [List.mapM_cons, textParameter_of_storable row.settingKey.property]
    rfl
  have hFound : (rowsByKey rows tenantId row.category [row.settingKey]).get? row.settingKey.val ≠ none := by
    apply Dict.get?_foldl_set_ne_none
    exact .inr ⟨row, List.mem_filter.mpr ⟨hRow, by simp [hVisible]⟩, rfl⟩
  obtain ⟨old, hOld⟩ := Option.ne_none_iff_exists'.mp hFound
  rw [updateSettingsBatch_eq, lookup_eq, textParameter_of_storable row.category.property]
  simp only [Except.bind]
  rw [hKeys]
  simp only [Except.map]
  rw [oneSetting, updateEach_some hOld, updateSettingValue_eq, textParameter_of_storable value.property,
    textParameter_of_storable row.category.property, textParameter_of_storable row.settingKey.property]
  exact ⟨_, rfl⟩

/-! ## Runs -/

section Runs

variable [LinearOrder Collated]

/-- What can be seen of a run. -/
def observed (host : Host Collated) (calls : List Call) (s : State) :
    List (Except PyException Response) × List AuditEntry × List Message :=
  ((transcript (handle host) s calls).map Transcript.Entry.output,
    (final (handle host) s calls).auditLog, (final (handle host) s calls).published)

theorem observed_alike {rows rows' : List Setting} (hConsistent : Consistent rows)
    (hLook : SameLook rows rows') {calls calls' : List Call}
    (hCalls : List.Forall₂ (SameCall rows) calls calls') (auditLog : List AuditEntry)
    (published : List Message) :
    observed host calls' ⟨rows', auditLog, published⟩ = observed host calls ⟨rows, auditLog, published⟩ := by
  have hStart : LooksAlike rows ⟨rows, auditLog, published⟩ ⟨rows', auditLog, published⟩ :=
    ⟨hLook, rfl, rfl, rfl⟩
  have hStep : ∀ s s' call call', LooksAlike rows s s' → SameCall rows call call' →
      (handle host call' s').1 = (handle host call s).1 ∧
        LooksAlike rows (handle host call s).2 (handle host call' s').2 :=
    fun _ _ _ _ h hCall => handle_alike hConsistent h hCall
  obtain ⟨hOutputs, hEnd⟩ := Transcript.unwinding hStep hStart hCalls
  rw [observed, observed, hOutputs, hEnd.auditLog, hEnd.published]

/-! ## A key that is secret to some -/

theorem mem_getByCategory {rows : List Setting} {tenantId : String} {category : Text} {x : Selected}
    {found : List Selected}
    (h : getSettingsByCategory host rows tenantId category.val = .ok found) :
    x ∈ found ↔ ∃ row ∈ rows, row.category = category ∧ row.visibleTo tenantId = true ∧
      maskSensitive row.toSelected = x := by
  rw [getByCategory_eq, listByCategory_eq, textParameter_of_storable category.property] at h
  simp only [Except.map, Except.bind] at h
  split at h
  · cases h
  · cases h
    simp only [List.mem_map, Sorting.mem_sortBy, List.mem_filter, Bool.and_eq_true, beq_iff_eq]
    constructor
    · rintro ⟨_, ⟨row, ⟨hRow, hCategory, hVisible⟩, rfl⟩, rfl⟩
      exact ⟨row, hRow, hCategory, hVisible, rfl⟩
    · rintro ⟨row, hRow, hCategory, hVisible, rfl⟩
      exact ⟨_, ⟨row, ⟨hRow, hCategory, hVisible⟩, rfl⟩, rfl⟩

theorem exists_getByCategory (host : Host Collated) {rows : List Setting} {tenantId : String}
    {row : Setting} (hRow : row ∈ rows) (hVisible : row.visibleTo tenantId = true) :
    ∃ found, getSettingsByCategory host rows tenantId row.category.val = .ok found := by
  rw [getByCategory_eq, listByCategory_eq, textParameter_of_storable row.category.property]
  simp only [Except.map, Except.bind]
  split
  · rename_i hNone
    rw [List.map_eq_nil_iff, List.map_eq_nil_iff] at hNone
    have hMem : row ∈ Sorting.sortBy (fun row => host.collate row.settingKey.val)
        (rows.filter fun r => r.category == row.category && r.visibleTo tenantId) := by
      rw [Sorting.mem_sortBy, List.mem_filter]
      exact ⟨hRow, by simp [hVisible]⟩
    rw [hNone] at hMem
    cases hMem
  · exact ⟨_, rfl⟩

def admin (tenantId : String) : User := ⟨"admin", none, "admin", tenantId⟩

/-- An update of one key, and then a look at its category. -/
def updateAndLook (tenantId category key value : String) : List Call :=
  [⟨.updateSettings (admin tenantId) category (oneSetting key value), none, none, none⟩,
    ⟨.getSettingsByCategory (admin tenantId) category, none, none, none⟩]

theorem observed_updateAndLook (host : Host Collated) {rows : List Setting} {tenantId : String} {row : Setting}
    (hRow : row ∈ rows) (hVisible : row.visibleTo tenantId = true) (value : Text)
    (auditLog : List AuditEntry) (published : List Message) :
    (observed host (updateAndLook tenantId row.category.val row.settingKey.val value.val)
      ⟨rows, auditLog, published⟩).1[1]? =
        some ((getSettingsByCategory host
          (rows.map (assign tenantId value row.category row.settingKey)) tenantId row.category.val).map
            (.category row.category.val)) := by
  obtain ⟨update, hUpdate⟩ := updateSettingsBatch_one host hRow hVisible value
  have hRoute : ∃ response log, updateRoute host ⟨.updateSettings (admin tenantId) row.category.val
      (oneSetting row.settingKey.val value.val), none, none, none⟩ (admin tenantId) row.category.val
      (oneSetting row.settingKey.val value.val) ⟨rows, auditLog, published⟩ =
        .ok (response, ⟨rows.map (assign tenantId value row.category row.settingKey), log, published⟩) := by
    have hAdmin : requireAdmin (admin tenantId) = .ok () := if_pos rfl
    rw [updateRoute, hAdmin]
    simp only [bind, Except.bind, admin, hUpdate]
    exact ⟨_, _, rfl⟩
  obtain ⟨response, log, hRoute⟩ := hRoute
  simp only [observed, updateAndLook, transcript, handle, hRoute, transact, List.map_cons,
    List.getElem?_cons_succ, List.getElem?_cons_zero]
  rfl

theorem assign_named {row : Setting} {tenantId : String} {category key : Text} (value : Text)
    (hCategory : row.category = category) (hKey : row.settingKey = key)
    (hVisible : row.visibleTo tenantId = true) :
    assign tenantId value category key row = { row with settingValue := some value } :=
  if_pos (by simp [hCategory, hKey, hVisible])

/-- The look after the update shows the value, and shows it for that value only. -/
theorem shown_of_assigned {rows : List Setting} {tenantId : String} {plain : Setting}
    (hPlain : plain ∈ rows) (hVisible : plain.visibleTo tenantId = true) (hNot : plain.secret = false)
    {value value' : Text} (hMask : value.val ≠ masked)
    (hSame : getSettingsByCategory host
        (rows.map (assign tenantId value' plain.category plain.settingKey)) tenantId plain.category.val =
      getSettingsByCategory host
        (rows.map (assign tenantId value plain.category plain.settingKey)) tenantId plain.category.val) :
    value' = value := by
  have hAssigned := assign_named value rfl rfl hVisible
  have hMem := List.mem_map_of_mem (f := assign tenantId value plain.category plain.settingKey) hPlain
  rw [hAssigned] at hMem
  obtain ⟨found, hFound⟩ := exists_getByCategory host hMem hVisible
  have hShown : ({ plain with settingValue := some value } : Setting).toSelected ∈ found := by
    apply (mem_getByCategory hFound).mpr
    refine ⟨_, hMem, rfl, hVisible, ?_⟩
    simp only [Entry.secret] at hNot
    simp [maskSensitive, Entry.secret, hNot]
  obtain ⟨row, hRow, hCategory, hRowVisible, hRowShown⟩ := (mem_getByCategory (hSame.trans hFound)).mp hShown
  obtain ⟨before, -, rfl⟩ := List.mem_map.mp hRow
  have hKeep : ∀ row : Setting, (assign tenantId value' plain.category plain.settingKey row).category =
        row.category ∧ (assign tenantId value' plain.category plain.settingKey row).settingKey =
        row.settingKey ∧ (assign tenantId value' plain.category plain.settingKey row).tenantId =
        row.tenantId := by
    intro row
    unfold assign
    split <;> exact ⟨rfl, rfl, rfl⟩
  obtain ⟨hSameCategory, hSameKey, hSameTenant⟩ := hKeep before
  have hBeforeVisible : before.visibleTo tenantId = true := by
    rwa [Setting.visibleTo, hSameTenant] at hRowVisible
  have hMaskKey : ∀ row : Selected, (maskSensitive row).settingKey = row.settingKey := by
    intro row
    unfold maskSensitive
    split <;> rfl
  have hKey : before.settingKey = plain.settingKey := by
    rw [← hSameKey, ← hMaskKey, hRowShown]
  rw [assign_named value' (hSameCategory.symm.trans hCategory) hKey hBeforeVisible] at hRowShown
  have hValue := congrArg (fun row : Selected => row.settingValue) hRowShown
  simp only [maskSensitive] at hValue
  split at hValue
  · exact absurd (congrArg Subtype.val (Option.some.inj hValue)).symm hMask
  · exact Option.some.inj hValue

/-- A row that is not secret lets a secret of its key out. -/
theorem differs_of_mixed (host : Host Collated) {rows : List Setting} {tenantId category key : String}
    {secret plain : Setting} (hSecret : secret ∈ rows) (hSecretNamed : secret.Named tenantId category key)
    (hIs : secret.secret = true) (hPlain : plain ∈ rows)
    (hPlainNamed : plain.Named tenantId category key) (hNot : plain.secret = false)
    (auditLog : List AuditEntry) (published : List Message) :
    ∃ calls calls', List.Forall₂ (SameCall rows) calls calls' ∧
      observed host calls' ⟨rows, auditLog, published⟩ ≠
        observed host calls ⟨rows, auditLog, published⟩ := by
  obtain ⟨rfl, rfl, hVisible⟩ := hPlainNamed
  have hA : Storable "a" := by unfold Storable; decide
  have hB : Storable "b" := by unfold Storable; decide
  have hItem : SameItem rows tenantId plain.category.val (plain.settingKey.val, "a")
      (plain.settingKey.val, "b") :=
    ⟨rfl, .inr ⟨⟨secret, hSecret, hSecretNamed, hIs⟩, hA, hB⟩⟩
  refine ⟨updateAndLook tenantId plain.category.val plain.settingKey.val "a",
    updateAndLook tenantId plain.category.val plain.settingKey.val "b",
    .cons ⟨.update (.cons hItem .nil), rfl, rfl, rfl⟩ (.cons ⟨.same _, rfl, rfl, rfl⟩ .nil),
    fun hSame => ?_⟩
  have hLookA := observed_updateAndLook host hPlain hVisible ⟨"a", hA⟩ auditLog published
  have hLookB := observed_updateAndLook host hPlain hVisible ⟨"b", hB⟩ auditLog published
  have hSecond := hLookB.symm.trans ((congrArg (fun seen => seen.1[1]?) hSame).trans hLookA)
  have hMap : Function.Injective (fun found : Except PyException (List Selected) =>
      found.map (Response.category plain.category.val)) := by
    intro x y hxy
    cases x <;> cases y <;> simp_all [Except.map]
  have hMask : "a" ≠ masked := by decide
  have hTexts := shown_of_assigned hPlain hVisible hNot hMask (hMap (Option.some.inj hSecond))
  have hDiffer : "b" ≠ "a" := by decide
  exact hDiffer (congrArg Subtype.val hTexts)

/-- Nothing of a secret can be seen in any run, exactly if keys are secret as a whole. -/
theorem secrets_unseen_iff (host : Host Collated) (rows : List Setting) (auditLog : List AuditEntry)
    (published : List Message) :
    Consistent rows ↔ ∀ rows' calls calls', SameLook rows rows' →
      List.Forall₂ (SameCall rows) calls calls' →
      observed host calls' ⟨rows', auditLog, published⟩ =
        observed host calls ⟨rows, auditLog, published⟩ := by
  constructor
  · intro hConsistent rows' calls calls' hLook hCalls
    exact observed_alike hConsistent hLook hCalls auditLog published
  · intro h row hRow row' hRow' tenantId category key hNamed hNamed'
    have hMixed : ∀ {secret plain : Setting}, secret ∈ rows → secret.Named tenantId category key →
        plain ∈ rows → plain.Named tenantId category key → secret.secret = true →
        plain.secret = true := by
      intro secret plain hSecret hSecretNamed hPlain hPlainNamed hIs
      by_contra hNot
      obtain ⟨calls, calls', hCalls, hDiffer⟩ := differs_of_mixed host hSecret hSecretNamed hIs
        hPlain hPlainNamed (eq_false_of_ne_true hNot) auditLog published
      exact hDiffer (h rows calls calls' rfl hCalls)
    exact Bool.eq_iff_iff.mpr
      ⟨hMixed hRow hNamed hRow' hNamed', hMixed hRow' hNamed' hRow hNamed⟩

end Runs

end OpenRadiusWeb.Settings
