import Petalflow.Lib.Fold
import Petalflow.Lib.Utf8
import Petalflow.Tool.Validate

open List Function fold
open dict (Dict)
open text (trimSpace hasPrefix)

namespace petalflow.tool

structure AEAD where
  nonceSize : Nat
  sealBytes : List UInt8 → List UInt8 → List UInt8
  openBytes : List UInt8 → List UInt8 → Except String (List UInt8)
  open_seal : ∀ nonce plaintext, nonce.length = nonceSize → openBytes nonce (sealBytes nonce plaintext) = .ok plaintext

structure Base64 where
  encodeToString : List UInt8 → String
  decodeString : String → Except String (List UInt8)
  decode_encode : ∀ bytes, decodeString (encodeToString bytes) = .ok bytes

structure SecretCodec where
  aead : AEAD
  base64 : Base64

def encryptedValuePrefix : String := "enc:v1:"

def isEncryptedValue (value : String) : Bool := hasPrefix (trimSpace value) encryptedValuePrefix

namespace SecretCodec

def Nonce (c : SecretCodec) : Type := { bytes : List UInt8 // bytes.length = c.aead.nonceSize }

/-- Encrypts a value. Blank values and those that look encrypted are left alone. -/
def encrypt (c : SecretCodec) (nonce : Except String c.Nonce) (value : String) : Except String String :=
  if trimSpace value = "" then .ok value
  else if isEncryptedValue value then .ok value
  else
    match nonce with
    | .error err => .error err
    | .ok nonce =>
      let ciphertext := c.aead.sealBytes nonce.1 (utf8.encode value.toList)
      .ok (encryptedValuePrefix ++ c.base64.encodeToString (nonce.1 ++ ciphertext))

def decrypt (c : SecretCodec) (value : String) : Except String String := do
  if !isEncryptedValue value then return value
  let raw := (value.toList.dropPrefix? encryptedValuePrefix.toList).elim value String.ofList
  let payload ← c.base64.decodeString raw
  if payload.length < c.aead.nonceSize then throw "tool: encrypted payload is too short"
  let plaintext ← c.aead.openBytes (payload.take c.aead.nonceSize) (payload.drop c.aead.nonceSize)
  return String.ofList (utf8.decode plaintext)

variable {c : SecretCodec} {nonce : Except String c.Nonce} {value encrypted : String}

theorem isEncryptedValue_append (rest : String) : isEncryptedValue (encryptedValuePrefix ++ rest) = true :=
  text.hasPrefix_trimSpace (by decide) (by decide) rest

theorem trimSpace_ne_of_isEncryptedValue (henc : isEncryptedValue value = true) : trimSpace value ≠ "" := by
  intro hblank
  rw [isEncryptedValue, hblank] at henc
  cases henc

theorem isEncryptedValue_encrypt (hvalue : trimSpace value ≠ "") (hencrypt : c.encrypt nonce value = .ok encrypted) :
    isEncryptedValue encrypted = true := by
  unfold encrypt at hencrypt
  rw [if_neg hvalue] at hencrypt
  grind [isEncryptedValue_append]

theorem decrypt_encrypt (hvalue : trimSpace value ≠ "") (hplain : isEncryptedValue value = false)
    (hencrypt : c.encrypt nonce value = .ok encrypted) : c.decrypt encrypted = .ok value := by
  unfold encrypt at hencrypt
  rw [if_neg hvalue, hplain, if_neg Bool.false_ne_true] at hencrypt
  split at hencrypt
  · cases hencrypt
  · next nonce =>
    cases hencrypt
    have hraw : ((encryptedValuePrefix ++ c.base64.encodeToString
        (nonce.1 ++ c.aead.sealBytes nonce.1 (utf8.encode value.toList))).toList.dropPrefix?
          encryptedValuePrefix.toList) =
          some (c.base64.encodeToString (nonce.1 ++ c.aead.sealBytes nonce.1 (utf8.encode value.toList))).toList := by
      rw [text.dropPrefix?_eq_some, String.toList_append]
    have hlength : ¬(nonce.1 ++ c.aead.sealBytes nonce.1 (utf8.encode value.toList)).length < c.aead.nonceSize := by
      rw [List.length_append, nonce.2]
      omega
    simp only [decrypt, isEncryptedValue_append, hraw, Option.elim_some, String.ofList_toList, c.base64.decode_encode,
      hlength, List.take_left' nonce.2, List.drop_left' nonce.2, c.aead.open_seal _ _ nonce.2, utf8.decode_encode,
      Bool.not_true, if_false, Bool.false_eq_true, bind, Except.bind, pure, Except.pure]

end SecretCodec

structure ToolRegistration.SameRecord (reg reg' : ToolRegistration) : Prop where
  name : reg.name = reg'.name
  status : reg.status = reg'.status
  enabled : reg.enabled = reg'.enabled
  config : ∀ key, reg.config.get? key = reg'.config.get? key
  sensitive : ∀ key, reg.manifest.sensitive key = reg'.manifest.sensitive key

/-- What the SQLite store uses: the cipher with its random nonces, the JSON encoding,
which reads back what it wrote, the clock, and the errors of contexts and of the
database. All but the cipher and the encoding depend on the occasion. -/
structure StoreEnv (Payload : Type) where
  codec : SecretCodec
  nonce : Nat → String → Except String codec.Nonce
  marshal : ToolRegistration → Except String Payload
  unmarshal : Payload → Except String ToolRegistration
  unmarshal_marshal : ∀ reg payload, marshal reg = .ok payload →
    ∃ reg', unmarshal payload = .ok reg' ∧ reg'.SameRecord reg
  now : Nat → Int
  ctxErr : Nat → Option String
  dbErr : Nat → Option String

abbrev Rows (Payload : Type) := Dict String Payload

def convertField (convert : String → String → Except String String) (verb name : String)
    (config : Dict String String) (field : String × FieldSpec) : Except String (Dict String String) :=
  if !field.2.sensitive then .ok config
  else
    let value := (config.get? field.1).getD ""
    if trimSpace value = "" then .ok config
    else
      match convert field.1 value with
      | .error err => .error s!"tool: {verb} config {quote field.1} for {name}: {err}"
      | .ok converted => .ok (config.insert field.1 converted)

def convertSensitive (convert : String → String → Except String String) (verb : String) (reg : ToolRegistration) :
    Except String (Dict String String) :=
  reg.manifest.config.entries.foldlM (convertField convert verb reg.name) reg.config

variable {Payload : Type} (env : StoreEnv Payload)

def encryptSensitiveRegistration (t : Nat) (reg : ToolRegistration) : Except String ToolRegistration :=
  (convertSensitive (fun key value => env.codec.encrypt (env.nonce t key) value) "encrypt" reg).map fun config =>
    { reg with config }

def decryptSensitiveRegistration (reg : ToolRegistration) : Except String ToolRegistration :=
  (convertSensitive (fun _ value => env.codec.decrypt value) "decrypt" reg).map fun config => { reg with config }

namespace StoreEnv

def encodeRegistration (t : Nat) (reg : ToolRegistration) : Except String Payload := do
  let clone ← encryptSensitiveRegistration env t reg
  (env.marshal clone).mapError fun err => s!"tool: sqlite encode registration: {err}"

def decodeRegistration (payload : Payload) : Except String ToolRegistration := do
  let reg ← (env.unmarshal payload).mapError fun err => s!"tool: sqlite decode registration: {err}"
  decryptSensitiveRegistration env reg

def interruption (t : Nat) (operation : String) : Option String :=
  match env.ctxErr t with
  | some err => some err
  | none => (env.dbErr t).map fun err => s!"tool: sqlite {operation}: {err}"

def get (t : Nat) (rows : Rows Payload) (name : String) : Except String (Option ToolRegistration) :=
  match env.interruption t "get registration" with
  | some err => .error err
  | none =>
    match rows.get? name with
    | none => .ok none
    | some payload => (env.decodeRegistration payload).map some

/-- All registrations in the order of their names. One that cannot be decoded fails
the whole list. -/
def list (t : Nat) (rows : Rows Payload) : Except String (List ToolRegistration) :=
  match env.interruption t "list registrations" with
  | some err => .error err
  | none => (rows.entries.insertionSort fun a b => a.1 ≤ b.1).mapM fun row => env.decodeRegistration row.2

def prepare (now : Int) (existing : Option ToolRegistration) (reg : ToolRegistration) : ToolRegistration :=
  { reg with
    status := if reg.status = .unset then .unverified else reg.status
    registeredAt := (reg.registeredAt.or (existing.bind (·.registeredAt))).or (some now)
    lastHealthCheck := reg.lastHealthCheck.or (existing.bind (·.lastHealthCheck)) }

def upsert (t : Nat) (rows : Rows Payload) (reg : ToolRegistration) : Except String (Rows Payload) :=
  match env.ctxErr t with
  | some err => .error err
  | none =>
    if trimSpace reg.name = "" then .error "tool: registration name is required"
    else do
      let existing ← env.get t rows reg.name
      let payload ← env.encodeRegistration t (prepare (env.now t) existing reg)
      match env.interruption t "upsert registration" with
      | some err => .error err
      | none => .ok (rows.insert reg.name payload)

def delete (t : Nat) (rows : Rows Payload) (name : String) : Except String (Rows Payload) :=
  match env.interruption t "delete registration" with
  | some err => .error err
  | none => .ok (rows.erase name)

end StoreEnv

inductive Write where
  | upsert (t : Nat) (reg : ToolRegistration)
  | delete (t : Nat) (name : String)

/-- The rows, and for each name the registration whose upsert returned nil, unless a
later write touched the name. -/
structure Written (Payload : Type) where
  rows : Rows Payload
  last : String → Option ToolRegistration

/-- One write. A failed one changes nothing. -/
def Written.apply {Payload : Type} (env : StoreEnv Payload) (s : Written Payload) : Write → Written Payload
  | .upsert t reg =>
    match env.upsert t s.rows reg with
    | .error _ => s
    | .ok rows => { rows, last := Function.update s.last reg.name (some reg) }
  | .delete t name =>
    match env.delete t s.rows name with
    | .error _ => s
    | .ok rows => { rows, last := Function.update s.last name none }

def Written.after {Payload : Type} (env : StoreEnv Payload) (writes : List Write) : Written Payload :=
  writes.foldl (Written.apply env) { rows := .empty, last := fun _ => none }

variable {convert : String → String → Except String String} {verb name : String}
  {config config' : Dict String String}

def converted (convert : String → String → Except String String) (sensitive : Bool) (key value : String) :
    Except String String :=
  if sensitive ∧ trimSpace value ≠ "" then convert key value else .ok value

def Converts (convert : String → String → Except String String) (sensitive : String → Bool)
    (config config' : Dict String String) : Prop :=
  ∀ key, Option.Rel (fun value value' => converted convert (sensitive key) key value = .ok value')
    (config.get? key) (config'.get? key)

variable {field : String × FieldSpec}

theorem convertField_converts (hround : convertField convert verb name config field = .ok config') :
    Converts convert (fun key => key = field.1 ∧ field.2.sensitive) config config' := by
  intro key
  unfold convertField at hround
  have hsame : ∀ (sensitive : Bool), (∀ value ∈ config.get? key, ¬(sensitive ∧ trimSpace value ≠ "")) →
      Option.Rel (fun value value' => converted convert sensitive key value = .ok value')
        (config.get? key) (config.get? key) := by
    intro sensitive huntouched
    cases hvalue : config.get? key with
    | none => exact .none
    | some value => exact .some (if_neg (huntouched value hvalue))
  by_cases hsensitive : field.2.sensitive = true
  · rw [hsensitive, Bool.not_true, if_neg Bool.false_ne_true] at hround
    by_cases hblank : trimSpace ((config.get? field.1).getD "") = ""
    · rw [if_pos hblank] at hround
      cases hround
      apply hsame
      rintro value hvalue ⟨hkey, hfilled⟩
      simp_all
    · rw [if_neg hblank] at hround
      split at hround
      · cases hround
      · next converted' hconvert =>
        cases hround
        by_cases hkey : key = field.1
        · subst hkey
          cases hvalue : config.get? field.1 with
          | none =>
            rw [hvalue] at hblank
            exact absurd rfl hblank
          | some value => simp_all [converted]
        · rw [Dict.get?_insert_of_ne hkey]
          simp_all
  simp_all

theorem convertField_total
    (hconvert : ∀ value, config.get? field.1 = some value → ∃ value',
      converted convert field.2.sensitive field.1 value = .ok value') :
    ∃ config', convertField convert verb name config field = .ok config' := by
  unfold convertField
  split
  · exact ⟨_, rfl⟩
  · next hsensitive =>
    dsimp only
    split
    · exact ⟨_, rfl⟩
    · next hfilled =>
      cases hvalue : config.get? field.1 with
      | none =>
        rw [hvalue] at hfilled
        exact absurd rfl hfilled
      | some value =>
        rw [hvalue, Option.getD_some] at hfilled
        obtain ⟨value', hconverted⟩ := hconvert value hvalue
        simp_all [converted]

theorem Converts.trans {first second : String → Bool} {mid : Dict String String}
    (hfirst : Converts convert first config mid) (hsecond : Converts convert second mid config')
    (hdisjoint : ∀ key, first key = true → second key = false) :
    Converts convert (fun key => first key || second key) config config' := by
  intro key
  have hleft := hfirst key
  have hright := hsecond key
  generalize config.get? key = value at hleft ⊢
  generalize mid.get? key = value' at hleft hright
  generalize config'.get? key = value'' at hright ⊢
  cases hleft with
  | none =>
    cases hright
    exact .none
  | some hleft =>
    cases hright with
    | some hright =>
      refine .some ?_
      dsimp only
      cases hkey : first key with
      | true => simp_all [converted]
      | false => simp_all [converted]

def sensitiveIn (fields : List (String × FieldSpec)) (key : String) : Bool :=
  (fields.lookup key).any (·.sensitive)

theorem sensitiveIn_cons {rest : List (String × FieldSpec)} (hfresh : field.1 ∉ rest.map Prod.fst) (key : String) :
    sensitiveIn (field :: rest) key = (decide (key = field.1 ∧ field.2.sensitive) || sensitiveIn rest key) := by
  unfold sensitiveIn
  rw [lookup_cons]
  by_cases hkey : key = field.1
  · have hnone : rest.lookup key = none := by
      rw [lookup_eq_none_iff]
      intro e he
      rw [bne_iff_ne]
      rintro rfl
      exact hfresh (hkey ▸ mem_map_of_mem he)
    rw [hnone]
    simp [hkey]
  grind

variable {fields : List (String × FieldSpec)}

theorem foldlM_converts (hnodup : (fields.map Prod.fst).Nodup)
    (hfold : fields.foldlM (convertField convert verb name) config = .ok config') :
    Converts convert (sensitiveIn fields) config config' := by
  induction fields generalizing config with
  | nil =>
    cases hfold
    intro key
    cases config'.get? key with
    | none => exact .none
    | some value => exact .some (if_neg (by simp [sensitiveIn]))
  | cons field rest ih =>
    obtain ⟨hfresh, hnodup⟩ := nodup_cons.mp hnodup
    rw [foldlM_cons] at hfold
    obtain ⟨mid, hround, hrest⟩ := bind_eq_ok.mp hfold
    rw [funext (sensitiveIn_cons hfresh)]
    refine (convertField_converts hround).trans (ih hnodup hrest) ?_
    intro key hkey
    obtain rfl : key = field.1 := (of_decide_eq_true hkey).1
    rw [sensitiveIn, lookup_eq_none_iff.mpr, Option.any_none]
    grind

theorem foldlM_convert_total (hnodup : (fields.map Prod.fst).Nodup)
    (hconvert : ∀ key value, config.get? key = some value →
      ∃ value', converted convert (sensitiveIn fields key) key value = .ok value') :
    ∃ config', fields.foldlM (convertField convert verb name) config = .ok config' := by
  induction fields generalizing config with
  | nil => exact ⟨config, rfl⟩
  | cons field rest ih =>
    obtain ⟨hfresh, hnodup⟩ := nodup_cons.mp hnodup
    have hnone : rest.lookup field.1 = none := by
      rw [lookup_eq_none_iff]
      intro e he
      rw [bne_iff_ne]
      exact fun heq => hfresh (heq ▸ mem_map_of_mem he)
    obtain ⟨mid, hround⟩ : ∃ mid, convertField convert verb name config field = .ok mid := by
      apply convertField_total
      grind [sensitiveIn]
    obtain ⟨config', hrest⟩ : ∃ config', rest.foldlM (convertField convert verb name) mid = .ok config' := by
      apply ih hnodup
      intro key value hvalue
      by_cases hkey : key = field.1
      · exact ⟨value, if_neg (by simp [sensitiveIn, hkey, hnone])⟩
      · have hsame := convertField_converts hround key
        rw [hvalue] at hsame
        cases hold : config.get? key with
        | none =>
          rw [hold] at hsame
          cases hsame
        | some old =>
          rw [hold] at hsame
          cases hsame with
          | some hsame =>
            rw [converted, if_neg (by simp [hkey])] at hsame
            grind [sensitiveIn_cons]
    exact ⟨config', by rw [foldlM_cons, hround]; exact hrest⟩

variable {reg : ToolRegistration}

theorem convertSensitive_converts (hconvert : convertSensitive convert verb reg = .ok config') :
    Converts convert reg.manifest.sensitive reg.config config' :=
  foldlM_converts reg.manifest.config.nodup hconvert

theorem convertSensitive_total (hconvert : ∀ key value, reg.config.get? key = some value →
      ∃ value', converted convert (reg.manifest.sensitive key) key value = .ok value') :
    ∃ config', convertSensitive convert verb reg = .ok config' :=
  foldlM_convert_total reg.manifest.config.nodup hconvert

def ToolRegistration.PlainSecrets (reg : ToolRegistration) : Prop :=
  ∀ key value, reg.manifest.sensitive key = true → reg.config.get? key = some value → isEncryptedValue value = false

variable {env : StoreEnv Payload} {t : Nat} {payload : Payload}

theorem converted_back {sensitive : Bool} {key value value' : String}
    (hplain : sensitive = true → isEncryptedValue value = false)
    (henc : converted (fun key value => env.codec.encrypt (env.nonce t key) value) sensitive key value = .ok value') :
    converted (fun _ value => env.codec.decrypt value) sensitive key value' = .ok value := by
  unfold converted at henc ⊢
  by_cases hconvert : sensitive = true ∧ trimSpace value ≠ ""
  · rw [if_pos hconvert] at henc
    have hlooks := SecretCodec.isEncryptedValue_encrypt hconvert.2 henc
    rw [if_pos ⟨hconvert.1, SecretCodec.trimSpace_ne_of_isEncryptedValue hlooks⟩]
    exact SecretCodec.decrypt_encrypt hconvert.2 (hplain hconvert.1) henc
  · rw [if_neg hconvert] at henc
    cases henc
    rw [if_neg hconvert]

theorem decode_encode (hplain : reg.PlainSecrets) (hencode : env.encodeRegistration t reg = .ok payload) :
    ∃ reg', env.decodeRegistration payload = .ok reg' ∧ reg'.SameRecord reg := by
  obtain ⟨clone, hclone, hmarshal⟩ := bind_eq_ok.mp hencode
  obtain ⟨config, hconvert, rfl⟩ := map_eq_ok.mp hclone
  have henc := convertSensitive_converts hconvert
  obtain ⟨read, hread, hsame⟩ := env.unmarshal_marshal _ payload (mapError_eq_ok.mp hmarshal)
  -- every value that is read comes from a value of the registration, and goes back to it
  have hback : ∀ key, Option.Rel (fun value value' =>
      converted (fun _ value => env.codec.decrypt value) (read.manifest.sensitive key) key value' = .ok value)
      (reg.config.get? key) (read.config.get? key) := by
    intro key
    rw [hsame.config key, hsame.sensitive key]
    have hkey := henc key
    dsimp only
    generalize config.get? key = found at hkey ⊢
    generalize hvalue : reg.config.get? key = value at hkey ⊢
    cases hkey with
    | none => exact .none
    | some hkey => exact .some (converted_back (fun hsensitive => hplain key _ hsensitive hvalue) hkey)
  obtain ⟨config', hdecrypt⟩ : ∃ config', convertSensitive (fun _ value => env.codec.decrypt value) "decrypt" read =
      .ok config' := by
    apply convertSensitive_total
    intro key value' hvalue'
    have hkey := hback key
    rw [hvalue'] at hkey
    cases hvalue : reg.config.get? key with
    | none =>
      rw [hvalue] at hkey
      cases hkey
    | some value => simp_all
  refine ⟨{ read with config := config' }, ?_, hsame.name, hsame.status, hsame.enabled, ?_, hsame.sensitive⟩
  · simp only [StoreEnv.decodeRegistration, hread, decryptSensitiveRegistration, hdecrypt, Except.mapError, bind,
      Except.bind, Except.map]
  · intro key
    have hdec := convertSensitive_converts hdecrypt key
    have hkey := hback key
    dsimp only
    generalize reg.config.get? key = value at hkey ⊢
    generalize read.config.get? key = value' at hkey hdec
    generalize config'.get? key = value'' at hdec ⊢
    cases hkey with
    | none =>
      cases hdec
      rfl
    | some hkey =>
      cases hdec with
      | some hdec =>
        rw [hkey] at hdec
        cases hdec
        rfl

variable {rows rows' : Rows Payload}

theorem upsert_eq_ok (hupsert : env.upsert t rows reg = .ok rows') :
    ∃ existing payload, env.encodeRegistration t (StoreEnv.prepare (env.now t) existing reg) = .ok payload ∧
      rows' = rows.insert reg.name payload := by
  unfold StoreEnv.upsert at hupsert
  split at hupsert
  · cases hupsert
  · split at hupsert
    · cases hupsert
    · obtain ⟨existing, -, hupsert⟩ := bind_eq_ok.mp hupsert
      obtain ⟨payload, hencode, hupsert⟩ := bind_eq_ok.mp hupsert
      grind

theorem delete_eq_ok (hdelete : env.delete t rows name = .ok rows') : rows' = rows.erase name := by
  grind [StoreEnv.delete]

def Written.Readable (env : StoreEnv Payload) (s : Written Payload) : Prop :=
  ∀ name, Option.Rel (fun reg payload => ∃ got, env.decodeRegistration payload = .ok got ∧
    ∀ key, got.config.get? key = reg.config.get? key) (s.last name) (s.rows.get? name)

def Write.PlainSecrets : Write → Prop
  | .upsert _ reg => reg.PlainSecrets
  | .delete _ _ => True

theorem Written.Readable.apply {s : Written Payload} (hs : s.Readable env) {write : Write}
    (hplain : write.PlainSecrets) : (s.apply env write).Readable env := by
  cases write with
  | upsert t reg =>
    unfold Written.apply
    dsimp only
    split
    · exact hs
    · next rows hupsert =>
      obtain ⟨existing, payload, hencode, rfl⟩ := upsert_eq_ok hupsert
      intro name
      dsimp only
      by_cases hname : name = reg.name
      · subst hname
        have hprepared : (StoreEnv.prepare (env.now t) existing reg).PlainSecrets := hplain
        obtain ⟨got, hdecode, hsame⟩ := decode_encode hprepared hencode
        rw [update_self, Dict.get?_insert_self]
        exact .some ⟨got, hdecode, hsame.config⟩
      · rw [update_of_ne hname, Dict.get?_insert_of_ne hname]
        exact hs name
  | delete t name' =>
    unfold Written.apply
    dsimp only
    split
    · exact hs
    · next rows hdelete =>
      obtain rfl := delete_eq_ok hdelete
      intro name
      dsimp only
      by_cases hname : name = name'
      · simp_all
      · rw [update_of_ne hname, Dict.get?_erase_of_ne hname]
        exact hs name

theorem readable_after {writes : List Write} (hplain : ∀ write ∈ writes, write.PlainSecrets) :
    (Written.after env writes).Readable env := by
  have hempty : Written.Readable env { rows := .empty, last := fun _ => none } := fun _ => .none
  refine foldlRecOn writes _ hempty ?_
  intro s hs write hwrite
  exact hs.apply (hplain write hwrite)

structure StoreEnv.Uninterrupted (env : StoreEnv Payload) (t : Nat) : Prop where
  ctxErr : env.ctxErr t = none
  dbErr : env.dbErr t = none

theorem StoreEnv.Uninterrupted.interruption (hfree : env.Uninterrupted t) (operation : String) :
    env.interruption t operation = none := by
  rw [StoreEnv.interruption, hfree.ctxErr, hfree.dbErr]
  rfl

theorem mapM_total {α β ε : Type} {f : α → Except ε β} {l : List α} (htotal : ∀ a ∈ l, ∃ b, f a = .ok b) :
    ∃ bs, l.mapM f = .ok bs := by
  induction l with
  | nil => exact ⟨[], rfl⟩
  | cons a rest ih =>
    obtain ⟨b, hb⟩ := htotal a mem_cons_self
    obtain ⟨bs, hbs⟩ := ih fun a' ha' => htotal a' (mem_cons_of_mem a ha')
    refine ⟨b :: bs, ?_⟩
    rw [mapM_cons, hb, hbs]
    rfl

/-- What was upserted last under a name is read back with its configuration, and all
registrations can be listed. -/
theorem stored_tools_read_back (env : StoreEnv Payload) (writes : List Write)
    (hplain : ∀ write ∈ writes, write.PlainSecrets) :
    (∀ name reg t, (Written.after env writes).last name = some reg → env.Uninterrupted t →
      ∃ got, env.get t (Written.after env writes).rows name = .ok (some got) ∧
        ∀ key, got.config.get? key = reg.config.get? key) ∧
    ∀ t, env.Uninterrupted t → ∃ regs, env.list t (Written.after env writes).rows = .ok regs := by
  have hreadable : (Written.after env writes).Readable env := readable_after hplain
  constructor
  · intro name reg t hlast hfree
    have hname := hreadable name
    rw [hlast] at hname
    generalize hrow : (Written.after env writes).rows.get? name = row at hname
    cases hname with
    | some hgot =>
      obtain ⟨got, hdecode, hsame⟩ := hgot
      refine ⟨got, ?_, hsame⟩
      rw [StoreEnv.get, hfree.interruption]
      simp only [hrow, hdecode, Except.map]
  · intro t hfree
    rw [StoreEnv.list, hfree.interruption]
    apply mapM_total
    intro row hrow
    have hname := hreadable row.1
    rw [Dict.get?_eq_some_iff.mpr ((mem_insertionSort _).mp hrow)] at hname
    generalize (Written.after env writes).last row.1 = last at hname
    cases hname with
    | some hgot => exact hgot.imp fun _ => And.left

def openAEAD : AEAD where
  nonceSize := 1
  sealBytes _ plaintext := plaintext
  openBytes _ ciphertext := .ok ciphertext
  open_seal _ _ _ := rfl

def latin1 : Base64 where
  encodeToString bytes := .ofList (bytes.map fun b => Char.ofNat b.toNat)
  decodeString s := .ok (s.toList.map fun c => UInt8.ofNat c.toNat)
  decode_encode := by
    intro bytes
    rw [String.toList_ofList, List.map_map]
    refine congrArg Except.ok (List.map_id'' (fun b => ?_) bytes)
    have hvalid : b.toNat.isValidChar := .inl (by have hb := b.toNat_lt; omega)
    rw [Function.comp_apply, Char.ofNat, dif_pos hvalid]
    exact UInt8.ofNat_toNat

def plainStore : StoreEnv ToolRegistration where
  codec := { aead := openAEAD, base64 := latin1 }
  nonce _ _ := .ok ⟨[0], rfl⟩
  marshal := .ok
  unmarshal := .ok
  unmarshal_marshal reg payload hmarshal := by
    cases hmarshal
    exact ⟨reg, rfl, rfl, rfl, rfl, fun _ => rfl, fun _ => rfl⟩
  now t := t
  ctxErr _ := none
  dbErr _ := none

def tokenTool (name token : String) : ToolRegistration :=
  { name
    manifest := { newManifest name with config := Dict.empty.insert "token" { type := "string", sensitive := true } }
    config := Dict.empty.insert "token" token }

theorem stored_tools_read_back_token :
    let writes := [Write.upsert 0 (tokenTool "first" "secret"), .upsert 1 (tokenTool "second" "other"),
      .delete 2 "second"]
    (∀ name reg t, (Written.after plainStore writes).last name = some reg → plainStore.Uninterrupted t →
      ∃ got, plainStore.get t (Written.after plainStore writes).rows name = .ok (some got) ∧
        ∀ key, got.config.get? key = reg.config.get? key) ∧
    ∀ t, plainStore.Uninterrupted t → ∃ regs, plainStore.list t (Written.after plainStore writes).rows = .ok regs := by
  have hplain : ∀ name token, isEncryptedValue token = false → (tokenTool name token).PlainSecrets := by
    intro name token htoken key value _ hvalue
    by_cases hkey : key = "token"
    · grind [tokenTool, Dict.get?_insert_self]
    · rw [tokenTool, Dict.get?_insert_of_ne hkey] at hvalue
      cases hvalue
  refine stored_tools_read_back plainStore _ ?_
  intro write hwrite
  simp only [mem_cons, not_mem_nil, or_false] at hwrite
  obtain rfl | rfl | rfl := hwrite
  · exact hplain "first" "secret" (by decide +kernel)
  · exact hplain "second" "other" (by decide +kernel)
  · trivial

/-- A secret that looks encrypted is accepted, but cannot be read again, and the list
of all tools fails with it. -/
theorem stored_tool_unreadable :
    let writes := [Write.upsert 0 (tokenTool "first" "enc:v1:"), .upsert 1 (tokenTool "second" "other")]
    let s := Written.after plainStore writes
    (s.last "first").isSome ∧ (s.last "second").isSome ∧
      (plainStore.get 2 s.rows "first").toOption.isNone ∧ (plainStore.get 2 s.rows "second").toOption.isSome ∧
      (plainStore.list 2 s.rows).toOption.isNone ∧
      (plainStore.upsert 2 s.rows (tokenTool "first" "repaired")).toOption.isNone := by
  decide +kernel

end petalflow.tool
