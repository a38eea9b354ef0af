import Stembot.Agent.AesEax
import Stembot.Models.ArduinoJson
import Stembot.Storage.Access

/-!
# The configuration

`Config` of `config.cpp`. Its first members lie one behind the other in memory,
so a `char*` read of a full `agtuuid` goes on into the key and the flags.
-/

namespace Stembot

open Library

/-- SHA-256 as the PSA call computes it; `none` when the call fails. -/
abbrev Sha256 := Bytes → Option Key

/-- A hash whose computation never fails. -/
abbrev hashing (sha : Bytes → Key) : Sha256 := fun text => some (sha text)

structure Config where
  agtuuid : List.Vector UInt8 36
  key : Key
  debug : Bool
  polling : Bool
  pollTicks : UInt32 := 100
  peerUrl : Bytes
  wifiSSID : Bytes
  wifiPassword : Bytes
  kvstore : KVStore

def defaultKey (sha256 : Sha256) : Key := (sha256 (bytes "changeme")).getD (.replicate 32 0)

def setKeyWithPassphrase (sha256 : Sha256) (passphrase : Bytes) : Key :=
  (sha256 passphrase).getD (.replicate 32 0)

theorem setKeyWithPassphrase_hashing (sha : Bytes → Key) :
    setKeyWithPassphrase (hashing sha) = sha := rfl

namespace Config

def setPassphrase (sha256 : Sha256) (c : Config) (passphrase : Bytes) : Config :=
  { c with key := setKeyWithPassphrase sha256 passphrase }

def defaultUuid : Bytes := bytes "00000000-0000-0000-0000-000000000000"

def flag (b : Bool) : UInt8 := if b then 1 else 0

/-- A 32-bit word in memory, low byte first. -/
def word (n : UInt32) : Bytes :=
  [n.toUInt8, (n >>> 8).toUInt8, (n >>> 16).toUInt8, (n >>> 24).toUInt8]

/-- The two bytes that align `poll_ticks`. No member covers them, and in an object of static storage
they are zero. -/
def padding : Bytes := [0, 0]

/-- The memory behind `agtuuid`. -/
def behind (c : Config) : Bytes :=
  c.key.toList ++ [flag c.debug, flag c.polling] ++ padding ++ word c.pollTicks

/-- `agtuuid` read as a `char*`. -/
def uuid (c : Config) : Bytes := cstr (c.agtuuid.toList ++ c.behind)

/-- The reads of `load`. -/
def loadFrom (sha256 : Sha256) (c : Config) (kvstore : KVStore) : NvsProgram Config := do
  let agtuuid := strncpySizeof c.agtuuid (← kvstore.getString "agtuuid" defaultUuid)
  let (keyLen, key) ← kvstore.getBytes "key" c.key
  let key := if keyLen ≠ 32 then defaultKey sha256 else key
  let peerUrl ← kvstore.getString "peer_url" []
  let wifiSSID ← kvstore.getString "wifi_ssid" []
  let wifiPassword ← kvstore.getString "wifi_password" []
  let debug ← kvstore.getBool "debug" false
  let polling ← kvstore.getBool "polling" false
  return { c with agtuuid, key, debug, polling, peerUrl, wifiSSID, wifiPassword, kvstore }

def load (sha256 : Sha256) (c : Config) : NvsProgram Config := do
  let (_, kvstore) ← c.kvstore.begin "config" false
  c.loadFrom sha256 kvstore

def save (c : Config) : NvsProgram Unit := do
  let _ ← c.kvstore.putString "agtuuid" (some (terminated (c.agtuuid.toList ++ c.behind)))
  let _ ← c.kvstore.putBytes "key" (some c.key.toList)
  let _ ← c.kvstore.putStdString "peer_url" c.peerUrl
  let _ ← c.kvstore.putStdString "wifi_ssid" c.wifiSSID
  let _ ← c.kvstore.putStdString "wifi_password" c.wifiPassword
  let _ ← c.kvstore.putBool "debug" c.debug
  let _ ← c.kvstore.putBool "polling" c.polling
  return ()

/-- What the constructor starts from; `load` overwrites the members without an initialiser. -/
def blank : Config where
  agtuuid := .replicate 36 0
  key := .replicate 32 0
  debug := false
  polling := false
  peerUrl := []
  wifiSSID := []
  wifiPassword := []
  kvstore := {}

/-- The constructor. -/
def create (sha256 : Sha256) : NvsProgram Config := blank.load sha256

/-- The destructor. -/
def destroy (c : Config) : NvsProgram Unit := do
  let _ ← c.kvstore.close
  return ()

def toDoc (c : Config) : Json :=
  let doc := Json.null.set (bytes "agtuuid") (.str c.uuid)
  let doc := doc.set (bytes "peerUrl") (.str c.peerUrl)
  let doc := doc.set (bytes "wifiSSID") (.str c.wifiSSID)
  let doc := doc.set (bytes "debug") (.bool c.debug)
  doc.set (bytes "polling") (.bool c.polling)

def toJson (A : ArduinoJson) (c : Config) : Bytes := A.serializeJson c.toDoc

theorem toDoc_within {n : Nat} (c : Config) : c.toDoc.Within (n + 1) :=
  ((((Json.Within.null.set _ (.str _)).set _ (.str _)).set _ (.str _)).set _ (.bool _)).set _
  (.bool _)

def loadedKey (sha256 : Sha256) (e : Option NvsValue) : Key :=
  match e with
  | some (.blob b) => if h : b.length = 32 then ⟨b, h⟩ else defaultKey sha256
  | _ => defaultKey sha256

/-- The settings that a namespace holds, on top of the members that `load` leaves alone. -/
def ofEntries (sha256 : Sha256) (es : Entries) (c : Config) : Config :=
  { c with
    agtuuid := strncpySizeof (.replicate 36 0) (Entries.string (es "agtuuid") defaultUuid)
    key := loadedKey sha256 (es "key")
    debug := Entries.bool (es "debug") false
    polling := Entries.bool (es "polling") false
    peerUrl := Entries.string (es "peer_url") []
    wifiSSID := Entries.string (es "wifi_ssid") []
    wifiPassword := Entries.string (es "wifi_password") [] }

/-- The entries that a save leaves. -/
def entries (c : Config) (es : Entries) : Entries :=
  let es := Function.update es "agtuuid" (some (.str (terminated (c.agtuuid.toList ++ c.behind))))
  let es := Function.update es "key" (some (.blob c.key.toList))
  let es := Function.update es "peer_url" (some (.str (terminated c.peerUrl)))
  let es := Function.update es "wifi_ssid" (some (.str (terminated c.wifiSSID)))
  let es := Function.update es "wifi_password" (some (.str (terminated c.wifiPassword)))
  let es := Function.update es "debug" (some (.scalar .u8 (flag c.debug)))
  Function.update es "polling" (some (.scalar .u8 (flag c.polling)))

/-- A short or missing key is replaced by the default key in full. -/
theorem loadedKey_eq (sha256 : Sha256) (e : Option NvsValue) (buf : Key) :
    (if (Entries.bytes e buf).1 ≠ 32 then defaultKey sha256 else (Entries.bytes e buf).2) =
      loadedKey sha256 e := by
  match e with
  | none => rfl
  | some (.str _) => rfl
  | some (.scalar _ _) => rfl
  | some (.blob b) =>
    by_cases h : b.length = 32
    · simp only [Entries.bytes, loadedKey, h, le_refl, if_true, overwrite_full buf h]
      exact (if_neg (by simp)).trans (dif_pos h).symm
    · by_cases fits : b.length ≤ 32 <;> simp [Entries.bytes, loadedKey, h, fits]

/-- The stored agent uuid as a string. -/
def storedUuid (es : Entries) : Bytes := cstr (Entries.string (es "agtuuid") defaultUuid)

theorem uuid_of_short (sha256 : Sha256) {es : Entries} (c : Config)
    (short : (storedUuid es).length < 36) : (c.ofEntries sha256 es).uuid = storedUuid es :=
  cstr_strncpySizeof_of_lt _ _ short _

/-- A stored uuid that fills the buffer is read together with what lies behind it. -/
theorem uuid_of_long (sha256 : Sha256) {es : Entries} (c : Config)
    (long : 36 ≤ (storedUuid es).length) :
    (c.ofEntries sha256 es).uuid = (storedUuid es).take 36 ++ cstr (c.ofEntries sha256 es).behind :=
  cstr_strncpySizeof_of_le _ _ long _

end Config

end Stembot
