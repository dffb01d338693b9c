import OpenRadiusWeb.Lib.Statements
import OpenRadiusWeb.ConfigManager.SelectedPair
import OpenRadiusWeb.ConfigManager.Success

/-! # Reading back `clients.conf`

The values of a NAS client stand bare on the lines of its block. The generated text is read line by
line and compared with the fixed blocks and the one block that each enabled row is to become.
-/

namespace OpenRadiusWeb.BareTexts

open ConfigManager Statements

/-! ## Lines of the generated texts -/

def remark (n : Nat) (text : String) : Line := .comment n text.toList

def heads (kind name : String) : Line := .opens 0 [kind.toList, name.toList]

def pair (key value : String) : Line := .item 4 [key.toList, ['='], value.toList]

def flag (name : String) : Line := .item 4 [name.toList]

def saysPair (key value : String) : Statement := .item [key.toList, ['='], value.toList]

/-- What is written for a secret. -/
def secretText (m : Manager) (stored : Option String) : String :=
  match m.decryptSecret stored with
  | .ok secret => orElse secret "changeme"
  | .error _ => ""

/-- A text that can stand as the value of a pair. -/
def IsValue (l : Lexis) (value : String) : Prop := IsWord l value.toList ∧ value.toList ≠ brace

theorem isValue_of_plain {l : Lexis} {value : String} (h : IsPlain value.toList) : IsValue l value := by
  refine ⟨h.isWord, fun hEq => ?_⟩
  rw [hEq] at h
  exact absurd h (by decide)

instance (l : Lexis) (value : String) : Decidable (IsValue l value) :=
  inferInstanceAs (Decidable (_ ∧ _))

section Lines

variable {l : Lexis} {n : Nat} {kind name key value text : String}

@[simp] theorem fixed_remark : (remark n text).Fixed ↔ '\n' ∉ text.toList := Iff.rfl

@[simp] theorem fixed_empty : Line.empty.Fixed ↔ True := Iff.rfl

@[simp] theorem fixed_closes : (Line.closes n).Fixed ↔ True := Iff.rfl

theorem fixed_heads (h : IsPlain kind.toList) : (heads kind name).Fixed := ⟨kind.toList, rfl, h⟩

theorem fixed_pair (h : IsPlain key.toList) : (pair key value).Fixed := ⟨key.toList, rfl, h⟩

theorem fixed_flag (h : IsPlain name.toList) : (flag name).Fixed := ⟨name.toList, rfl, h⟩

@[simp] theorem sound_remark : (remark n text).Sound l ↔ True := Iff.rfl

@[simp] theorem sound_empty : Line.empty.Sound l ↔ True := Iff.rfl

@[simp] theorem sound_closes : (Line.closes n).Sound l ↔ True := Iff.rfl

theorem sound_heads (h : IsPlain kind.toList) : (heads kind name).Sound l ↔ IsWord l name.toList := by
  have hWords : (heads kind name).Sound l ↔ ∀ w ∈ [kind.toList, name.toList], IsWord l w := Iff.rfl
  rw [hWords, List.forall_mem_cons, List.forall_mem_singleton, and_iff_right h.isWord]

theorem sound_pair (h : IsPlain key.toList) : (pair key value).Sound l ↔ IsValue l value := by
  have hSign : IsWord l ['='] := ⟨by decide, by decide, by decide, rfl⟩
  have hWords : (pair key value).Sound l ↔
      (∀ w ∈ [key.toList, ['='], value.toList], IsWord l w) ∧ some value.toList ≠ some brace := Iff.rfl
  rw [hWords, List.forall_mem_cons, List.forall_mem_cons, List.forall_mem_singleton,
    and_iff_right h.isWord, and_iff_right hSign, IsValue, ne_eq, Option.some_inj]

theorem sound_flag (h : IsPlain name.toList) : (flag name).Sound l := by
  refine ⟨List.forall_mem_singleton.mpr h.isWord, fun hEq => ?_⟩
  have hBrace : name.toList = brace := Option.some_inj.mp hEq
  rw [hBrace] at h
  exact absurd h (by decide)

end Lines

/-- The lines of all rows, when those of each row are known. -/
theorem flatten_of_mapM {α : Type} {rows : List α} {f : α → Except Exc (List String)}
    {lines : α → List Line} {texts : List (List String)} (h : rows.mapM f = .ok texts)
    (hEach : ∀ row text, f row = .ok text → text.map String.toList = (lines row).map Line.text) :
    texts.flatten.map String.toList = (rows.flatMap lines).map Line.text := by
  induction rows generalizing texts with
  | nil =>
    cases h
    rfl
  | cons row rows ih =>
    rw [List.mapM_cons] at h
    obtain ⟨first, hFirst, h⟩ := Except.ok_of_bind h
    obtain ⟨rest, hRest, h⟩ := Except.ok_of_bind h
    cases h
    rw [List.flatten_cons, List.map_append, List.flatMap_cons, List.map_append, hEach row first hFirst,
      ih hRest]

theorem toList_intercalate {texts : List String} {lines : List Line}
    (h : texts.map String.toList = lines.map Line.text) :
    ("\n".intercalate texts).toList = joined lines := by
  rw [String.toList_intercalate, h]
  rfl

section Clients

variable (m : Manager) (r : Reads) (client : NasClient)

/-- `client.get("shortname") or client["name"][:31]`. -/
def shortname : String := orElse client.shortname (Text.take 31 client.name)

def clientSecret : String := secretText m (some client.secretEncrypted)

def headerLines : List Line :=
  [remark 0 " OpenRadiusWeb Generated Configuration - DO NOT EDIT MANUALLY", remark 0 "",
    remark 0 " RADIUS client (NAS) configuration", .empty,
    heads "client" "localhost", pair "ipaddr" "127.0.0.1", pair "secret" "testing123",
    pair "shortname" "localhost", pair "nas_type" "other", .closes 0, .empty,
    heads "client" "localhost_ipv6", pair "ipv6addr" "::1", pair "secret" "testing123",
    pair "shortname" "localhost_v6", .closes 0, .empty]

def virtualServer : List String :=
  if orEmpty client.virtualServer = "" then [] else [orEmpty client.virtualServer]

def description : List String :=
  if orEmpty client.description = "" then []
  else [Text.strip (Text.replaceChar '\n' " " (orEmpty client.description))]

def blockLines : List Line :=
  [heads "client" (shortname client), pair "ipaddr" client.ipAddress,
    pair "secret" (clientSecret m client), pair "shortname" (shortname client),
    pair "nas_type" (strOrNone client.nasType)] ++
  (virtualServer client).map (pair "virtual_server") ++
  (description client).map (fun text => remark 4 (" " ++ text)) ++ [.closes 0, .empty]

/-! ## What the text is to say -/

/-- The one section of a client, with the values of its row. -/
def clientBlock : List Statement :=
  [.opens ["client".toList, (shortname client).toList], saysPair "ipaddr" client.ipAddress,
    saysPair "secret" (clientSecret m client), saysPair "shortname" (shortname client),
    saysPair "nas_type" (strOrNone client.nasType)] ++
  (virtualServer client).map (saysPair "virtual_server") ++ [.closes]

/-- The sections that every text has. -/
def localBlocks : List Statement :=
  [.opens ["client".toList, "localhost".toList], saysPair "ipaddr" "127.0.0.1",
    saysPair "secret" "testing123", saysPair "shortname" "localhost", saysPair "nas_type" "other",
    .closes,
    .opens ["client".toList, "localhost_ipv6".toList], saysPair "ipv6addr" "::1",
    saysPair "secret" "testing123", saysPair "shortname" "localhost_v6", .closes]

/-- The rows `_load_nas_clients` selects. -/
def enabledNasClients : List NasClient :=
  Sorting.sortBy NasClient.name (r.db.radiusNasClients.filter fun s => s.enabled = some true)

/-- Read back, the text is the fixed sections and one section for each enabled row. -/
def ClientsReadBack (l : Lexis) (content : String) : Prop :=
  l.readText content.toList =
    some (localBlocks ++ (enabledNasClients r).flatMap (clientBlock m))

/-- The values of a client are single words. -/
structure Writable (l : Lexis) : Prop where
  shortname : IsValue l (shortname client)
  ipAddress : IsValue l client.ipAddress
  secret : IsValue l (clientSecret m client)
  nasType : IsValue l (strOrNone client.nasType)
  virtualServer : ∀ name ∈ virtualServer client, IsValue l name

end Clients

variable {m : Manager} {r : Reads} {client : NasClient} {l : Lexis} {content : String}

theorem headerLines_text : Manager.clientsHeader.map String.toList = headerLines.map Line.text := by
  decide

theorem headerLines_fixed : ∀ line ∈ headerLines, line.Fixed := by
  simp only [headerLines, List.forall_mem_cons, fixed_closes, fixed_empty, fixed_remark,
    List.not_mem_nil, false_implies, implies_true, and_true, true_and]
  exact ⟨by decide, by decide, by decide, fixed_heads (by decide), fixed_pair (by decide),
    fixed_pair (by decide), fixed_pair (by decide), fixed_pair (by decide), fixed_heads (by decide),
    fixed_pair (by decide), fixed_pair (by decide), fixed_pair (by decide)⟩

theorem headerLines_sound : ∀ line ∈ headerLines, line.Sound l := by
  have hPair : ∀ {key value : String}, IsPlain key.toList → IsPlain value.toList →
      (pair key value).Sound l := fun hKey hValue => (sound_pair hKey).mpr (isValue_of_plain hValue)
  have hHeads : ∀ {kind name : String}, IsPlain kind.toList → IsPlain name.toList →
      (heads kind name).Sound l := fun hKind hName => (sound_heads hKind).mpr hName.isWord
  simp only [headerLines, List.forall_mem_cons, sound_closes, sound_empty, sound_remark,
    List.not_mem_nil, false_implies, implies_true, and_true, true_and]
  exact ⟨hHeads (by decide) (by decide), hPair (by decide) (by decide), hPair (by decide) (by decide),
    hPair (by decide) (by decide), hPair (by decide) (by decide), hHeads (by decide) (by decide),
    hPair (by decide) (by decide), hPair (by decide) (by decide), hPair (by decide) (by decide)⟩

theorem clientLines_text {texts : List String} (h : m.clientLines client = .ok texts) :
    texts.map String.toList = (blockLines m client).map Line.text := by
  obtain ⟨secret, hSecret, h⟩ := Except.ok_of_bind h
  have hText : clientSecret m client = orElse secret "changeme" := by
    rw [clientSecret, secretText, hSecret]
  cases h
  rw [blockLines, hText]
  unfold virtualServer description
  split <;> split <;> simp [heads, pair, remark, Line.text, unwords, unbrace, shortname, brace]

theorem blockLines_statements : (blockLines m client).flatMap Line.statements = clientBlock m client := by
  unfold blockLines clientBlock virtualServer description
  split <;> split <;> rfl

theorem newline_notMem_strip {s : String} (h : '\n' ∉ s.toList) : '\n' ∉ (Text.strip s).toList := by
  rw [Text.strip, String.toList_ofList, List.mem_reverse]
  intro hMem
  have hRight := (List.dropWhile_sublist _).subset hMem
  rw [List.mem_reverse] at hRight
  exact h ((List.dropWhile_sublist _).subset hRight)

theorem newline_notMem_replace (s : String) : '\n' ∉ (Text.replaceChar '\n' " " s).toList := by
  rw [Text.replaceChar, String.toList_ofList, List.mem_flatMap]
  rintro ⟨c, -, hc⟩
  split at hc
  · cases List.mem_singleton.mp hc
  · rename_i hNe
    exact hNe (List.mem_singleton.mp hc).symm

theorem blockLines_fixed : ∀ line ∈ blockLines m client, line.Fixed := by
  have hDescription : ∀ text ∈ description client, (remark 4 (" " ++ text)).Fixed := by
    intro text hText
    unfold description at hText
    split at hText
    · cases hText
    · rw [List.mem_singleton.mp hText, fixed_remark, String.toList_append, List.mem_append, not_or]
      exact ⟨by decide, newline_notMem_strip (newline_notMem_replace _)⟩
  rw [blockLines]
  simp only [List.forall_mem_append, List.forall_mem_cons, List.forall_mem_map, fixed_closes,
    fixed_empty, List.not_mem_nil, false_implies, implies_true, and_true]
  exact ⟨⟨⟨fixed_heads (by decide), fixed_pair (by decide), fixed_pair (by decide),
    fixed_pair (by decide), fixed_pair (by decide)⟩, fun _ _ => fixed_pair (by decide)⟩, hDescription⟩

theorem blockLines_sound_iff : (∀ line ∈ blockLines m client, line.Sound l) ↔ Writable m client l := by
  rw [blockLines]
  simp only [List.forall_mem_append, List.forall_mem_cons, List.forall_mem_map, sound_closes,
    sound_empty, sound_remark, List.not_mem_nil, false_implies, implies_true, and_true]
  rw [sound_heads (by decide), sound_pair (by decide), sound_pair (by decide), sound_pair (by decide),
    sound_pair (by decide)]
  constructor
  · rintro ⟨⟨-, hIp, hSecret, hName, hType⟩, hServer⟩
    exact ⟨hName, hIp, hSecret, hType, fun name hMem => (sound_pair (by decide)).mp (hServer name hMem)⟩
  · intro h
    exact ⟨⟨h.shortname.1, h.ipAddress, h.secret, h.shortname, h.nasType⟩,
      fun name hMem => (sound_pair (by decide)).mpr (h.virtualServer name hMem)⟩

/-- The generated clients are read back as the rows exactly when the values of each enabled row are
single words. Whatever the descriptions are, they change nothing. -/
theorem clientsConf_readBack_iff (l : Lexis) (h : m.generateClientsConfig r = .ok content) :
    ClientsReadBack m r l content ↔ ∀ client ∈ enabledNasClients r, Writable m client l := by
  obtain ⟨clients, hLoad, h⟩ := Except.ok_of_bind h
  obtain ⟨blocks, hBlocks, h⟩ := Except.ok_of_bind h
  have hClients : enabledNasClients r = clients := by
    rw [Reads.loadNasClients, Reads.fetchAll] at hLoad
    split at hLoad
    · cases hLoad
    · exact Except.ok.inj hLoad
  cases h
  have hText : (Manager.clientsHeader ++ blocks.flatten).map String.toList =
      (headerLines ++ clients.flatMap (blockLines m)).map Line.text := by
    rw [List.map_append, List.map_append, headerLines_text,
      flatten_of_mapM hBlocks fun _ _ => clientLines_text]
  have hStatements : (headerLines ++ clients.flatMap (blockLines m)).flatMap Line.statements =
      localBlocks ++ clients.flatMap (clientBlock m) := by
    rw [List.flatMap_append, List.flatMap_assoc]
    exact congrArg (localBlocks ++ ·) (List.flatMap_congr fun client _ => blockLines_statements)
  have hFixed : ∀ line ∈ headerLines ++ clients.flatMap (blockLines m), line.Fixed := by
    rw [List.forall_mem_append]
    refine ⟨headerLines_fixed, fun line hMem => ?_⟩
    obtain ⟨client, -, hMem⟩ := List.mem_flatMap.mp hMem
    exact blockLines_fixed line hMem
  rw [ClientsReadBack, hClients, toList_intercalate hText, ← hStatements, readText_joined_iff hFixed,
    List.forall_mem_append]
  constructor
  · intro hSound client hMem
    refine blockLines_sound_iff.mp fun line hLine => hSound.2 line ?_
    exact List.mem_flatMap.mpr ⟨client, hMem, hLine⟩
  · intro hWritable
    refine ⟨headerLines_sound, fun line hMem => ?_⟩
    obtain ⟨client, hClient, hMem⟩ := List.mem_flatMap.mp hMem
    exact blockLines_sound_iff.mpr (hWritable client hClient) line hMem

/-! ## Two rows -/

def sampleClient (secret : String) : NasClient where
  name := "Floor 2 switch"
  ipAddress := "10.0.0.0/24"
  secretEncrypted := secret
  shortname := some "sw-floor2"
  nasType := some "cisco"
  description := some "second floor\nrack 3"
  virtualServer := none
  enabled := some true

def clientReads (secret : String) : Reads :=
  ⟨⟨[], [], [], [sampleClient secret], []⟩, fun _ => none, ""⟩

/-- Every character but a line break may stand in a word. -/
def wideLexis : Lexis where
  wordChar c := c != '\n'
  plain c h := by
    have hNe := ne_special h '\n' (by decide)
    simpa using hNe

theorem sample_generates (secret : String) :
    ∃ content, legacyManager.generateClientsConfig (clientReads secret) = .ok content := by
  refine Except.bind_succeeds ⟨_, rfl⟩ fun clients => ?_
  refine Except.bind_succeeds (Except.mapM_succeeds fun client _ => ?_) fun _ => ⟨_, rfl⟩
  refine Except.bind_succeeds ?_ fun _ => ⟨_, rfl⟩
  unfold Manager.decryptSecret
  split
  · exact ⟨_, rfl⟩
  · split
    · exact ⟨_, rfl⟩
    · exact ⟨_, rfl⟩

theorem enabled_clientReads (secret : String) :
    enabledNasClients (clientReads secret) = [sampleClient secret] := rfl

/-- The description with a line break does no harm, the secret with one opens another section. -/
theorem clientsConf_readBack_sample :
    (∃ content, legacyManager.generateClientsConfig (clientReads "s3cret!") = .ok content ∧
      ClientsReadBack legacyManager (clientReads "s3cret!") wideLexis content) ∧
    ∃ content, legacyManager.generateClientsConfig (clientReads "s3cret!\n\x7d\nclient any \x7b") =
        .ok content ∧
      ¬ClientsReadBack legacyManager (clientReads "s3cret!\n\x7d\nclient any \x7b") wideLexis content := by
  constructor
  · obtain ⟨content, h⟩ := sample_generates "s3cret!"
    refine ⟨content, h, (clientsConf_readBack_iff wideLexis h).mpr ?_⟩
    rw [enabled_clientReads, List.forall_mem_singleton]
    exact ⟨by decide, by decide, by decide, by decide, by decide⟩
  · obtain ⟨content, h⟩ := sample_generates "s3cret!\n\x7d\nclient any \x7b"
    refine ⟨content, h, fun hRead => ?_⟩
    have hSecret := ((clientsConf_readBack_iff wideLexis h).mp hRead _ List.mem_cons_self).secret
    exact absurd hSecret (by decide)

end OpenRadiusWeb.BareTexts
