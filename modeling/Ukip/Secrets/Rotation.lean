import Ukip.Analytics.Corpus
import Ukip.Core.Clock
import Ukip.Foundation.Ciphers

/-!
# Rotation of the encryption key

`encryption.py` and the re-encryption walk of `scripts/rotate_encryption.py`, over the
columns that the endpoints write with `encrypt`.  The walk visits the columns that
`secret_rotation.py` registers.
-/

namespace Ukip.Secrets.Rotation

open Foundation.Ciphers Analytics.Corpus Core.Clock

/-- `cryptography.fernet` with the key texts it accepts, and `sha256(...).hexdigest()`. -/
structure Fernet (Key Nonce : Type) where
  cipher : Cipher Key Nonce String
  /-- `Fernet(key)`; `none` where it raises -/
  key : String → Option Key
  digest : String → String

structure Environment where
  encryptionKey : Option String
  encryptionKeysRetiring : Option String

structure KeyRing (Key : Type) where
  primary : Key
  retiring : List Key

def KeyRing.keys {Key : Type} (ring : KeyRing Key) : List Key := ring.primary :: ring.retiring

def stripText (text : List Char) : String := String.ofList (strip isPythonSpace text)

def parseKeys (raw : Option String) : List String :=
  (((raw.getD "").toList.splitOn ',').map stripText).filter fun part => part ≠ ""

def filled (value : Option String) : Option String := value.filter fun text => text ≠ ""

variable {Key Nonce : Type} (fernet : Fernet Key Nonce)

/-- `_build_fernets`; a key that is malformed is skipped. -/
def buildFernets (environment : Environment) : Option (KeyRing Key) :=
  ((filled environment.encryptionKey).bind fernet.key).map fun primary =>
    { primary := primary
      retiring := (parseKeys environment.encryptionKeysRetiring).filterMap fernet.key }

def encrypt (ring : Option (KeyRing Key)) (nonce : Nonce) (value : Option String) : Option String :=
  match ring, filled value with
  | some keys, some text => some (fernet.cipher.encipher keys.primary nonce text)
  | _, _ => value

def decrypt (ring : Option (KeyRing Key)) (value : Option String) : Option String :=
  match ring, filled value with
  | some keys, some text => some ((fernet.cipher.decipherAny keys.keys text).getD text)
  | _, _ => value

def isEncryptedWithPrimary (ring : Option (KeyRing Key)) (value : Option String) : Bool :=
  match ring, filled value with
  | some keys, some text => (fernet.cipher.decipher keys.primary text).isSome
  | _, _ => false

def keyFingerprint (key : Option String) : Option String :=
  (filled key).map fun text => "sha256:" ++ String.ofList ((fernet.digest text).toList.take 12)

structure AIIntegration where
  id : Nat
  apiKey : Option String

structure StoreConnection where
  id : Nat
  apiKey : Option String
  apiSecret : Option String
  accessToken : Option String

structure AlertChannel where
  id : Nat
  webhookUrl : String

structure NotificationSettings where
  id : Nat
  smtpPassword : Option String

structure SecretRotationEvent where
  secretName : String
  rotatedAt : Time
  operator : String
  rowsReencrypted : Nat
  oldKeyFingerprint : Option String
  newKeyFingerprint : Option String
  notes : String

structure SecretsDb where
  aiIntegrations : List AIIntegration
  storeConnections : List StoreConnection
  alertChannels : List AlertChannel
  notificationSettings : List NotificationSettings
  rotationEvents : List SecretRotationEvent

/-- The columns that the endpoints write with `encrypt`. -/
inductive SecretColumn where
  | aiIntegrationApiKey
  | storeConnectionApiKey
  | storeConnectionApiSecret
  | storeConnectionAccessToken
  | alertChannelWebhookUrl
  | notificationSettingsSmtpPassword
  deriving DecidableEq

def encryptedColumns : List SecretColumn :=
  [.aiIntegrationApiKey, .storeConnectionApiKey, .storeConnectionApiSecret,
    .storeConnectionAccessToken]

def SecretColumn.values (db : SecretsDb) : SecretColumn → List (Option String)
  | .aiIntegrationApiKey => db.aiIntegrations.map AIIntegration.apiKey
  | .storeConnectionApiKey => db.storeConnections.map StoreConnection.apiKey
  | .storeConnectionApiSecret => db.storeConnections.map StoreConnection.apiSecret
  | .storeConnectionAccessToken => db.storeConnections.map StoreConnection.accessToken
  | .alertChannelWebhookUrl => db.alertChannels.map fun channel => some channel.webhookUrl
  | .notificationSettingsSmtpPassword =>
    db.notificationSettings.map NotificationSettings.smtpPassword

/-- `setattr` on the column of every row, by its position. -/
def SecretColumn.assign (db : SecretsDb) (value : Nat → Option String → Option String) :
    SecretColumn → SecretsDb
  | .aiIntegrationApiKey =>
    { db with
      aiIntegrations := db.aiIntegrations.mapIdx fun index row =>
        { row with apiKey := value index row.apiKey } }
  | .storeConnectionApiKey =>
    { db with
      storeConnections := db.storeConnections.mapIdx fun index row =>
        { row with apiKey := value index row.apiKey } }
  | .storeConnectionApiSecret =>
    { db with
      storeConnections := db.storeConnections.mapIdx fun index row =>
        { row with apiSecret := value index row.apiSecret } }
  | .storeConnectionAccessToken =>
    { db with
      storeConnections := db.storeConnections.mapIdx fun index row =>
        { row with accessToken := value index row.accessToken } }
  | .alertChannelWebhookUrl =>
    { db with
      alertChannels := db.alertChannels.mapIdx fun index row =>
        { row with webhookUrl := (value index (some row.webhookUrl)).getD row.webhookUrl } }
  | .notificationSettingsSmtpPassword =>
    { db with
      notificationSettings := db.notificationSettings.mapIdx fun index row =>
        { row with smtpPassword := value index row.smtpPassword } }

structure RunResult where
  rowsReencrypted : Nat
  dryRun : Bool

def notConfigured : String := "ENCRYPTION_KEY is not configured — nothing to rotate."

def lockHeld : String := "Another re-encryption run is in progress (advisory lock held)."

def needsReencryption (ring : Option (KeyRing Key)) (value : Option String) : Bool :=
  (filled value).isSome && !isEncryptedWithPrimary fernet ring value

def reencrypted (ring : Option (KeyRing Key)) (nonce : Nonce) (value : Option String) :
    Option String :=
  if needsReencryption fernet ring value then encrypt fernet ring nonce (decrypt fernet ring value)
  else value

def walk (ring : Option (KeyRing Key)) (fresh : SecretColumn → Nat → Nonce) (dryRun : Bool) :
    List SecretColumn → Nat → SecretsDb → Nat × SecretsDb
  | [], rows, db => (rows, db)
  | column :: rest, rows, db =>
    walk ring fresh dryRun rest (rows + (column.values db).countP (needsReencryption fernet ring))
      (if dryRun then db
      else column.assign db fun index => reencrypted fernet ring (fresh column index))

/-- `fresh` is the randomness of the tokens, `acquired` whether the advisory lock was free; the
error is a SystemExit. -/
def runReencryption (environment : Environment) (fresh : SecretColumn → Nat → Nonce) (now : Time)
    (operator : String) (dryRun acquired : Bool) (db : SecretsDb) :
    Except String (RunResult × SecretsDb) :=
  let ring := buildFernets fernet environment
  if ring.isNone then .error notConfigured
  else if !acquired then .error lockHeld
  else
    let (rows, walked) := walk fernet ring fresh dryRun encryptedColumns 0 db
    if dryRun then .ok (⟨rows, true⟩, db)
    else
      let firstRetiring := stripText
        ((((environment.encryptionKeysRetiring.getD "").toList.splitOn ',').head?).getD [])
      .ok (⟨rows, false⟩,
        { walked with
          rotationEvents := walked.rotationEvents ++
            [{ secretName := "ENCRYPTION_KEY"
               rotatedAt := now
               operator := operator
               rowsReencrypted := rows
               oldKeyFingerprint := keyFingerprint fernet (some firstRetiring)
               newKeyFingerprint := keyFingerprint fernet environment.encryptionKey
               notes := "eager re-encryption" }] })

/-- `encrypt` has written the value, with one of the keys as the primary one. -/
def WrittenUnder (keys : List Key) (plain value : Option String) : Prop :=
  ∃ key ∈ keys, ∃ nonce, value = encrypt fernet (some ⟨key, []⟩) nonce plain

/-- Every stored secret was written under a key of the ring. -/
def Stored (environment : Environment) (plain : SecretColumn → List (Option String))
    (db : SecretsDb) : Prop :=
  ∀ ring, buildFernets fernet environment = some ring → ∀ column,
    List.Forall₂ (WrittenUnder fernet ring.keys) (plain column) (column.values db)

def withoutRetiring (environment : Environment) : Environment :=
  { environment with encryptionKeysRetiring := none }

/-- Without the retiring keys every secret reads as it was given. -/
def Readable (environment : Environment) (plain : SecretColumn → List (Option String))
    (db : SecretsDb) : Prop :=
  ∀ column : SecretColumn, (column.values db).map
    (decrypt fernet (buildFernets fernet (withoutRetiring environment))) = plain column

/-- A run re-encrypts nothing. -/
def Settled (environment : Environment) (db : SecretsDb) : Prop :=
  ∀ fresh now operator result after,
    runReencryption fernet environment fresh now operator false true db = .ok (result, after) →
      result.rowsReencrypted = 0 ∧ ∀ column : SecretColumn, column.values after = column.values db

/-- No key opens a secret in the clear. -/
def NoTokens (plain : SecretColumn → List (Option String)) : Prop :=
  ∀ column, ∀ text, some text ∈ plain column → ∀ key, fernet.cipher.decipher key text = none

/-- The secrets of the columns that are not registered are on the primary key. -/
def UnregisteredOnPrimary (environment : Environment) (db : SecretsDb) : Prop :=
  ∀ column, column ∉ encryptedColumns → ∀ value ∈ column.values db, (filled value).isSome = true →
    isEncryptedWithPrimary fernet (buildFernets fernet environment) value = true

theorem filled_eq_some_iff (value : Option String) (text : String) :
    filled value = some text ↔ value = some text ∧ text ≠ "" := by
  unfold filled
  rw [Option.filter_eq_some_iff, decide_eq_true_iff]

theorem filled_some {text : String} (truthy : text ≠ "") : filled (some text) = some text :=
  (filled_eq_some_iff _ text).mpr ⟨rfl, truthy⟩

variable {keys : List Key}

theorem writtenUnder_cases {plain value : Option String}
    (written : WrittenUnder fernet keys plain value) :
    (filled plain = none ∧ value = plain) ∨ ∃ key ∈ keys, ∃ nonce text, plain = some text ∧
      text ≠ "" ∧ value = some (fernet.cipher.encipher key nonce text) := by
  obtain ⟨key, member, nonce, rfl⟩ := written
  unfold encrypt
  cases isFilled : filled plain with
  | none => exact .inl ⟨rfl, rfl⟩
  | some text =>
    obtain ⟨isPlain, truthy⟩ := (filled_eq_some_iff plain text).mp isFilled
    exact .inr ⟨key, member, nonce, text, isPlain, truthy, rfl⟩

theorem writtenUnder_falsy {plain : Option String} {key : Key} (nonce : Nonce) (member : key ∈ keys)
    (falsy : filled plain = none) : WrittenUnder fernet keys plain plain := by
  refine ⟨key, member, nonce, ?_⟩
  unfold encrypt
  rw [falsy]

theorem writtenUnder_token {key : Key} (member : key ∈ keys) (nonce : Nonce) {text : String}
    (truthy : text ≠ "") :
    WrittenUnder fernet keys (some text) (some (fernet.cipher.encipher key nonce text)) := by
  refine ⟨key, member, nonce, ?_⟩
  unfold encrypt
  rw [filled_some truthy]

theorem decrypt_falsy (ring : Option (KeyRing Key)) {value : Option String}
    (falsy : filled value = none) : decrypt fernet ring value = value := by
  unfold decrypt
  rw [falsy]
  cases ring <;> rfl

theorem parseKeys_none : parseKeys none = [] := by decide

variable {ring : KeyRing Key} {environment : Environment}

theorem buildFernets_withoutRetiring (built : buildFernets fernet environment = some ring) :
    buildFernets fernet (withoutRetiring environment) = some ⟨ring.primary, []⟩ := by
  unfold buildFernets at built ⊢
  obtain ⟨primary, isPrimary, rfl⟩ := Option.map_eq_some_iff.mp built
  rw [withoutRetiring]
  dsimp only
  rw [isPrimary, parseKeys_none]
  rfl

/-- What is documented of the library: a token opens under its own key alone, and the empty
text is no token. -/
structure Fernet.Documented (fernet : Fernet Key Nonce) : Prop where
  lawful : fernet.cipher.Lawful
  empty : ∀ key, fernet.cipher.decipher key "" = none

variable {fernet}

theorem Fernet.Documented.filled_token (documented : fernet.Documented) (key : Key) (nonce : Nonce)
    (text : String) :
    filled (some (fernet.cipher.encipher key nonce text)) =
      some (fernet.cipher.encipher key nonce text) := by
  refine filled_some fun empty => ?_
  have opened := documented.lawful.decipher_encipher key nonce text
  rw [empty, documented.empty] at opened
  cases opened

theorem Fernet.Documented.decrypt_token (documented : fernet.Documented) {key : Key}
    (member : key ∈ ring.keys) (nonce : Nonce) (text : String) :
    decrypt fernet (some ring) (some (fernet.cipher.encipher key nonce text)) = some text := by
  unfold decrypt
  rw [documented.filled_token]
  dsimp only
  rw [documented.lawful.decipherAny_of_mem member]
  rfl

theorem Fernet.Documented.isEncryptedWithPrimary_token [DecidableEq Key]
    (documented : fernet.Documented) (ring : KeyRing Key) (key : Key) (nonce : Nonce) (text : String) :
    isEncryptedWithPrimary fernet (some ring) (some (fernet.cipher.encipher key nonce text)) =
      decide (ring.primary = key) := by
  unfold isEncryptedWithPrimary
  rw [documented.filled_token]
  dsimp only
  by_cases same : ring.primary = key
  · rw [same, documented.lawful.decipher_encipher, decide_eq_true rfl]
    rfl
  · rw [documented.lawful.decipher_other key ring.primary nonce text same, decide_eq_false same]
    rfl

section Values

variable {ring : KeyRing Key} {plain value : Option String}

theorem Fernet.Documented.decrypt_written (documented : fernet.Documented)
    (written : WrittenUnder fernet ring.keys plain value) : decrypt fernet (some ring) value = plain := by
  rcases writtenUnder_cases fernet written with ⟨falsy, rfl⟩ | ⟨key, member, nonce, text, rfl, _, rfl⟩
  · exact decrypt_falsy fernet (some ring) falsy
  · exact documented.decrypt_token member nonce text

variable [DecidableEq Key]

theorem Fernet.Documented.needs_of_primary (documented : fernet.Documented)
    (written : WrittenUnder fernet [ring.primary] plain value) :
    needsReencryption fernet (some ring) value = false := by
  unfold needsReencryption
  rcases writtenUnder_cases fernet written with ⟨falsy, rfl⟩ | ⟨key, member, nonce, text, rfl, _, rfl⟩
  · rw [falsy]
    rfl
  · rw [documented.isEncryptedWithPrimary_token, decide_eq_true (List.mem_singleton.mp member).symm,
      Bool.not_true, Bool.and_false]

theorem Fernet.Documented.written_reencrypted (documented : fernet.Documented) (nonce : Nonce)
    (written : WrittenUnder fernet ring.keys plain value) :
    WrittenUnder fernet [ring.primary] plain (reencrypted fernet (some ring) nonce value) := by
  have own : ring.primary ∈ [ring.primary] := List.mem_singleton_self ring.primary
  have reads := documented.decrypt_written written
  unfold reencrypted
  rw [reads]
  rcases writtenUnder_cases fernet written with
    ⟨falsy, rfl⟩ | ⟨key, _, before, text, rfl, truthy, rfl⟩
  · unfold needsReencryption
    rw [falsy, Option.isSome_none, Bool.false_and]
    exact writtenUnder_falsy fernet nonce own falsy
  · split
    · refine ⟨ring.primary, own, nonce, ?_⟩
      unfold encrypt
      rw [filled_some truthy]
    · rename_i kept
      unfold needsReencryption at kept
      rw [documented.filled_token, Option.isSome_some, Bool.true_and,
        documented.isEncryptedWithPrimary_token] at kept
      have same : ring.primary = key := by
        by_contra other
        rw [decide_eq_false other] at kept
        exact kept rfl
      exact same ▸ writtenUnder_token fernet own before truthy

/-- Without the retiring keys a secret reads as it was given exactly where it is on the
primary key. -/
theorem Fernet.Documented.readable_iff (documented : fernet.Documented)
    (written : WrittenUnder fernet ring.keys plain value)
    (noToken : ∀ text, plain = some text → ∀ key, fernet.cipher.decipher key text = none) :
    decrypt fernet (some ⟨ring.primary, []⟩) value = plain ↔
      ((filled value).isSome = true → isEncryptedWithPrimary fernet (some ring) value = true) := by
  rcases writtenUnder_cases fernet written with ⟨falsy, rfl⟩ | ⟨key, _, nonce, text, rfl, _, rfl⟩
  · refine iff_of_true (decrypt_falsy fernet _ falsy) fun truthy => ?_
    rw [falsy] at truthy
    cases truthy
  · rw [documented.filled_token, documented.isEncryptedWithPrimary_token, decide_eq_true_iff]
    by_cases same : ring.primary = key
    · refine iff_of_true ?_ fun _ => same
      exact documented.decrypt_token (by rw [same]; exact List.mem_cons_self) nonce text
    · refine iff_of_false (fun reads => ?_) fun all => same (all rfl)
      unfold decrypt at reads
      rw [documented.filled_token] at reads
      dsimp only at reads
      have missing : key ∉ (⟨ring.primary, []⟩ : KeyRing Key).keys := fun member =>
        same (List.mem_singleton.mp member).symm
      rw [documented.lawful.decipherAny_of_not_mem missing, Option.getD_none] at reads
      exact documented.lawful.encipher_ne (noToken text rfl key) nonce (Option.some.inj reads)

end Values

theorem map_mapIdx {Row : Type} {get : Row → Option String} {change : Nat → Row → Row}
    {value : Nat → Option String → Option String}
    (gets : ∀ index row, get (change index row) = value index (get row)) (rows : List Row) :
    (rows.mapIdx change).map get = (rows.map get).mapIdx value := by
  refine List.ext_getElem (by simp) fun index low high => ?_
  simp only [List.getElem_map, List.getElem_mapIdx, gets]

theorem map_mapIdx_same {Row : Type} {get : Row → Option String} {change : Nat → Row → Row}
    (gets : ∀ index row, get (change index row) = get row) (rows : List Row) :
    (rows.mapIdx change).map get = rows.map get := by
  refine List.ext_getElem (by simp) fun index low high => ?_
  simp only [List.getElem_map, List.getElem_mapIdx, gets]

theorem values_assign_self (db : SecretsDb) (value : Nat → Option String → Option String)
    {column : SecretColumn} (registered : column ∈ encryptedColumns) :
    column.values (column.assign db value) = (column.values db).mapIdx value := by
  cases column with
  | alertChannelWebhookUrl => exact absurd registered (by decide)
  | notificationSettingsSmtpPassword => exact absurd registered (by decide)
  | aiIntegrationApiKey
  | storeConnectionApiKey
  | storeConnectionApiSecret
  | storeConnectionAccessToken =>
    simp only [SecretColumn.values, SecretColumn.assign]
    refine map_mapIdx ?_ _
    intro index row
    rfl

theorem values_assign_other (db : SecretsDb) (value : Nat → Option String → Option String)
    {column other : SecretColumn} (apart : other ≠ column) :
    other.values (column.assign db value) = other.values db := by
  cases column <;> cases other <;>
    first
    | exact absurd rfl apart
    | rfl
    | (simp only [SecretColumn.values, SecretColumn.assign]
       refine map_mapIdx_same ?_ db.storeConnections
       intro index row
       rfl)

theorem values_walk (ring : Option (KeyRing Key)) (fresh : SecretColumn → Nat → Nonce)
    {columns : List SecretColumn} (distinct : columns.Nodup)
    (registered : ∀ column ∈ columns, column ∈ encryptedColumns) (rows : Nat) (db : SecretsDb)
    (column : SecretColumn) :
    column.values (walk fernet ring fresh false columns rows db).2 =
      if column ∈ columns then
        (column.values db).mapIdx fun index => reencrypted fernet ring (fresh column index)
      else column.values db := by
  induction columns generalizing rows db with
  | nil => rfl
  | cons head rest ih =>
    obtain ⟨apart, restDistinct⟩ := List.nodup_cons.mp distinct
    have restRegistered : ∀ other ∈ rest, other ∈ encryptedColumns := fun other member =>
      registered other (List.mem_cons_of_mem head member)
    unfold walk
    rw [ih restDistinct restRegistered, if_neg Bool.false_ne_true]
    by_cases isHead : column = head
    · subst isHead
      rw [if_neg apart, if_pos List.mem_cons_self,
        values_assign_self db _ (registered column List.mem_cons_self)]
    · have same : column ∈ head :: rest ↔ column ∈ rest :=
        ⟨fun member => (List.mem_cons.mp member).resolve_left isHead, List.mem_cons_of_mem head⟩
      rw [values_assign_other db _ isHead]
      by_cases member : column ∈ rest
      · rw [if_pos member, if_pos (same.mpr member)]
      · rw [if_neg member, if_neg fun here => member (same.mp here)]

theorem rows_walk_of_settled {ring : Option (KeyRing Key)} (fresh : SecretColumn → Nat → Nonce)
    (dryRun : Bool) (columns : List SecretColumn) (rows : Nat) {db : SecretsDb}
    (settled : ∀ column ∈ columns, ∀ value ∈ column.values db,
      needsReencryption fernet ring value = false)
    (distinct : columns.Nodup) :
    (walk fernet ring fresh dryRun columns rows db).1 = rows := by
  induction columns generalizing rows db with
  | nil => rfl
  | cons head rest ih =>
    obtain ⟨apart, restDistinct⟩ := List.nodup_cons.mp distinct
    have none : (head.values db).countP (needsReencryption fernet ring) = 0 := by
      refine List.countP_eq_zero.mpr fun value member => ?_
      rw [settled head List.mem_cons_self value member]
      exact Bool.false_ne_true
    unfold walk
    rw [none, Nat.add_zero]
    refine ih rows (fun column member value present => ?_) restDistinct
    have other : column ≠ head := by
      rintro rfl
      exact apart member
    refine settled column (List.mem_cons_of_mem head member) value ?_
    split at present
    · exact present
    · rwa [values_assign_other db _ other] at present

variable {plain values : List (Option String)}

theorem forall₂_mapIdx {Before After : Option String → Option String → Prop}
    {change : Nat → Option String → Option String} (pairs : List.Forall₂ Before plain values)
    (moves : ∀ index before value, Before before value → After before (change index value)) :
    List.Forall₂ After plain (values.mapIdx change) := by
  induction pairs generalizing change with
  | nil => exact .nil
  | cons here _ ih =>
    rw [List.mapIdx_cons]
    exact .cons (moves 0 _ _ here) (ih fun index => moves (index + 1))

theorem encryptedColumns_nodup : encryptedColumns.Nodup := by decide

variable {fresh : SecretColumn → Nat → Nonce} {db after : SecretsDb}

theorem runReencryption_served {now : Time} {operator : String} {acquired : Bool}
    {result : RunResult}
    (completes : runReencryption fernet environment fresh now operator false acquired db =
      .ok (result, after)) :
    ∃ ring, buildFernets fernet environment = some ring ∧
      result.rowsReencrypted = (walk fernet (some ring) fresh false encryptedColumns 0 db).1 ∧
        ∀ column : SecretColumn, column.values after =
          column.values (walk fernet (some ring) fresh false encryptedColumns 0 db).2 := by
  unfold runReencryption at completes
  cases built : buildFernets fernet environment with
  | none =>
    rw [built] at completes
    cases completes
  | some ring =>
    rw [built] at completes
    dsimp only at completes
    rw [if_neg (by simp)] at completes
    split at completes
    · cases completes
    · cases completes
      exact ⟨ring, rfl, rfl, fun column => by cases column <;> rfl⟩

theorem values_after (walked : ∀ column : SecretColumn, column.values after =
      column.values (walk fernet (some ring) fresh false encryptedColumns 0 db).2)
    (column : SecretColumn) :
    column.values after =
      if column ∈ encryptedColumns then
        (column.values db).mapIdx fun index => reencrypted fernet (some ring) (fresh column index)
      else column.values db :=
  (walked column).trans (values_walk (some ring) fresh encryptedColumns_nodup
    (fun _ member => member) 0 db column)

theorem Fernet.Documented.registered_on_primary (documented : fernet.Documented)
    {plain : SecretColumn → List (Option String)} (stored : ∀ column : SecretColumn,
      List.Forall₂ (WrittenUnder fernet ring.keys) (plain column) (column.values db))
    (walked : ∀ column : SecretColumn, column.values after =
      column.values (walk fernet (some ring) fresh false encryptedColumns 0 db).2)
    {column : SecretColumn} (registered : column ∈ encryptedColumns) :
    List.Forall₂ (WrittenUnder fernet [ring.primary]) (plain column) (column.values after) := by
  classical
  rw [values_after walked, if_pos registered]
  exact forall₂_mapIdx (stored column) fun index _ _ written =>
    documented.written_reencrypted (fresh column index) written

theorem Fernet.Documented.settled (documented : fernet.Documented)
    (built : buildFernets fernet environment = some ring)
    {plain : SecretColumn → List (Option String)} {db : SecretsDb}
    (primary : ∀ column ∈ encryptedColumns,
      List.Forall₂ (WrittenUnder fernet [ring.primary]) (plain column) (column.values db)) :
    Settled fernet environment db := by
  classical
  have none : ∀ column ∈ encryptedColumns, ∀ value ∈ column.values db,
      needsReencryption fernet (some ring) value = false := by
    intro column registered value member
    obtain ⟨index, low, rfl⟩ := List.mem_iff_getElem.mp member
    have pairs := primary column registered
    exact documented.needs_of_primary (pairs.get (pairs.length_eq ▸ low) low)
  intro fresh now operator result after completes
  obtain ⟨other, otherBuilt, rows, walked⟩ := runReencryption_served completes
  have same : other = ring := Option.some.inj (otherBuilt.symm.trans built)
  subst same
  refine ⟨rows.trans (rows_walk_of_settled fresh false encryptedColumns 0 none
    encryptedColumns_nodup), fun column => ?_⟩
  rw [values_after walked]
  split
  · rename_i registered
    refine List.ext_getElem (by simp) fun index low high => ?_
    rw [List.getElem_mapIdx, reencrypted,
      none column registered _ (List.getElem_mem high), if_neg Bool.false_ne_true]
  · rfl

theorem forall₂_iff_of_written {Written Reads : Option String → Option String → Prop}
    {Primary : Option String → Prop} (pairs : List.Forall₂ Written plain values)
    (decides : ∀ before ∈ plain, ∀ value, Written before value → (Reads before value ↔ Primary value)) :
    List.Forall₂ Reads plain values ↔ ∀ value ∈ values, Primary value := by
  induction pairs with
  | nil =>
    refine iff_of_true .nil fun value member => ?_
    cases member
  | @cons before value _ _ here _ ih =>
    rw [List.forall₂_cons, List.forall_mem_cons, decides before List.mem_cons_self value here,
      ih fun other member => decides other (List.mem_cons_of_mem before member)]

theorem reads_iff {reads : Option String → Option String} :
    values.map reads = plain ↔ List.Forall₂ (fun before value => reads value = before) plain values := by
  rw [eq_comm, ← List.forall₂_eq_eq_eq, List.forall₂_map_right_iff]
  exact ⟨fun pairs => pairs.imp fun _ _ same => same.symm, fun pairs => pairs.imp fun _ _ same => same.symm⟩

/-- Once a run has completed, the retiring keys may go and a second run changes nothing exactly
when the secrets of the columns that are not registered were on the primary key before. -/
theorem rotation_lossless_iff (documented : fernet.Documented) {environment : Environment}
    {plain : SecretColumn → List (Option String)} {db after : SecretsDb}
    (stored : Stored fernet environment plain db) (clear : NoTokens fernet plain)
    {fresh : SecretColumn → Nat → Nonce} {now : Time} {operator : String} {acquired : Bool}
    {result : RunResult}
    (completes : runReencryption fernet environment fresh now operator false acquired db =
      .ok (result, after)) :
    (Readable fernet environment plain after ∧ Settled fernet environment after) ↔
      UnregisteredOnPrimary fernet environment db := by
  classical
  obtain ⟨ring, built, _, walked⟩ := runReencryption_served completes
  have written := stored ring built
  have primary : ∀ column ∈ encryptedColumns,
      List.Forall₂ (WrittenUnder fernet [ring.primary]) (plain column) (column.values after) :=
    fun column registered => documented.registered_on_primary written walked registered
  have readable : ∀ column, column ∉ encryptedColumns →
      ((column.values after).map (decrypt fernet (some ⟨ring.primary, []⟩)) = plain column ↔
        ∀ value ∈ column.values db, (filled value).isSome = true →
          isEncryptedWithPrimary fernet (some ring) value = true) := by
    intro column unregistered
    rw [values_after walked, if_neg unregistered, reads_iff]
    refine forall₂_iff_of_written (written column) fun before member value here => ?_
    exact documented.readable_iff here fun text isText => clear column text (isText ▸ member)
  unfold Readable UnregisteredOnPrimary
  rw [buildFernets_withoutRetiring fernet built, built]
  constructor
  · rintro ⟨reads, _⟩ column unregistered
    exact (readable column unregistered).mp (reads column)
  · intro unregisteredPrimary
    refine ⟨fun column => ?_, documented.settled built primary⟩
    by_cases registered : column ∈ encryptedColumns
    · refine reads_iff.mpr ((primary column registered).imp fun before value here => ?_)
      exact documented.decrypt_written here
    · exact (readable column registered).mpr (unregisteredPrimary column registered)

inductive DemoKey where
  | old
  | new

def DemoKey.mark : DemoKey → Char
  | .old => 'O'
  | .new => 'N'

def demoFernet : Fernet DemoKey Unit where
  cipher :=
    { encipher := fun key _ text => String.ofList (key.mark :: text.toList)
      decipher := fun key token =>
        match token.toList with
        | mark :: rest => if mark = key.mark then some (String.ofList rest) else none
        | [] => none }
  key := fun raw => if raw = "old-key" then some .old else if raw = "new-key" then some .new else none
  digest := fun text => text

theorem demoFernet_documented : demoFernet.Documented := by
  refine ⟨⟨fun key _ text => ?_, fun key other _ text apart => ?_⟩, fun _ => rfl⟩
  · simp [demoFernet]
  · have marks : key.mark ≠ other.mark := by
      revert key other
      intro key other apart
      cases key <;> cases other <;> first | exact absurd rfl apart | decide
    simp [demoFernet, marks]

def rotatedEnvironment : Environment := ⟨some "new-key", some "old-key"⟩

def demoToken (key : DemoKey) (text : String) : String := demoFernet.cipher.encipher key () text

def beforeRotation : SecretsDb where
  aiIntegrations := [⟨1, some (demoToken .old "sk-1")⟩]
  storeConnections := []
  alertChannels := [⟨1, demoToken .old "https://hooks.example/a"⟩]
  notificationSettings := []
  rotationEvents := []

def demoPlain : SecretColumn → List (Option String)
  | .aiIntegrationApiKey => [some "sk-1"]
  | .alertChannelWebhookUrl => [some "https://hooks.example/a"]
  | _ => []

def afterRotation : SecretsDb where
  aiIntegrations := [⟨1, some (demoToken .new "sk-1")⟩]
  storeConnections := []
  alertChannels := [⟨1, demoToken .old "https://hooks.example/a"⟩]
  notificationSettings := []
  rotationEvents :=
    [⟨"ENCRYPTION_KEY", 5, "ops-script", 1, some "sha256:old-key", some "sha256:new-key",
      "eager re-encryption"⟩]

theorem rotation_completes :
    runReencryption demoFernet rotatedEnvironment (fun _ _ => ()) 5 "ops-script" false true
      beforeRotation = .ok (⟨1, false⟩, afterRotation) := by
  rfl

theorem demo_stored : Stored demoFernet rotatedEnvironment demoPlain beforeRotation := by
  intro ring built column
  have keys : ring.keys = [.new, .old] := by
    have here : buildFernets demoFernet rotatedEnvironment = some ⟨.new, [.old]⟩ := by rfl
    rw [here] at built
    cases built
    rfl
  rw [keys]
  have written : ∀ text, text ≠ "" →
      WrittenUnder demoFernet [.new, .old] (some text) (some (demoToken .old text)) := fun text truthy =>
    writtenUnder_token demoFernet (List.mem_cons_of_mem _ List.mem_cons_self) () truthy
  cases column with
  | aiIntegrationApiKey => exact .cons (written "sk-1" (by decide)) .nil
  | alertChannelWebhookUrl => exact .cons (written "https://hooks.example/a" (by decide)) .nil
  | storeConnectionApiKey | storeConnectionApiSecret | storeConnectionAccessToken
  | notificationSettingsSmtpPassword => exact .nil

theorem demo_noTokens : NoTokens demoFernet demoPlain := by
  intro column text member key
  cases column with
  | aiIntegrationApiKey =>
    obtain rfl := Option.some.inj (List.mem_singleton.mp member)
    cases key <;> decide
  | alertChannelWebhookUrl =>
    obtain rfl := Option.some.inj (List.mem_singleton.mp member)
    cases key <;> decide
  | storeConnectionApiKey | storeConnectionApiSecret | storeConnectionAccessToken
  | notificationSettingsSmtpPassword => cases member

theorem rotation_demo :
    (Readable demoFernet rotatedEnvironment demoPlain afterRotation ∧
        Settled demoFernet rotatedEnvironment afterRotation) ↔
      UnregisteredOnPrimary demoFernet rotatedEnvironment beforeRotation :=
  rotation_lossless_iff demoFernet_documented demo_stored demo_noTokens rotation_completes

/-- The walk does not visit the channels: once the old key is gone, the destination of the
channel reads as its token. -/
theorem channel_lost_with_old_key :
    Stored demoFernet rotatedEnvironment demoPlain beforeRotation ∧ NoTokens demoFernet demoPlain ∧
      runReencryption demoFernet rotatedEnvironment (fun _ _ => ()) 5 "ops-script" false true
        beforeRotation = .ok (⟨1, false⟩, afterRotation) ∧
      ¬ (Readable demoFernet rotatedEnvironment demoPlain afterRotation ∧
        Settled demoFernet rotatedEnvironment afterRotation) := by
  refine ⟨demo_stored, demo_noTokens, rotation_completes, ?_⟩
  rintro ⟨reads, _⟩
  have channel := reads .alertChannelWebhookUrl
  exact absurd channel (by decide)

end Ukip.Secrets.Rotation
