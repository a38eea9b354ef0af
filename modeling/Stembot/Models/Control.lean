import Stembot.Models.ArduinoJson

/-!
# Control forms

The two forms of `control.cpp` and the detection of a form's type. The config
object of a `GetConfig` is text that is emitted verbatim.
-/

namespace Stembot

open Library

structure GetConfig where
  configJson : Option Bytes := none
  error : Option Bytes := none
  objuuid : Option Bytes := none
  coluuid : Option Bytes := none

namespace GetConfig

/-- The form's document around a config value. -/
def docAround (f : GetConfig) (config : Json) : Json :=
  let doc := Json.null.set (bytes "type") (.str (bytes "get_config"))
  let doc := doc.set (bytes "config") config
  let doc := setOptStr doc "error" f.error
  let doc := setOptStr doc "objuuid" f.objuuid
  setOptStr doc "coluuid" f.coluuid

def toDoc (f : GetConfig) : Json := f.docAround (optJson .raw f.configJson)

def toJson (A : ArduinoJson) (f : GetConfig) : Bytes := A.serializeJson f.toDoc

def ofDoc (A : ArduinoJson) (doc : Json) : GetConfig where
  configJson := textUnlessNull A (doc.get (bytes "config"))
  error := getOptStr A (doc.get (bytes "error"))
  objuuid := getOptStr A (doc.get (bytes "objuuid"))
  coluuid := getOptStr A (doc.get (bytes "coluuid"))

def fromJson (A : ArduinoJson) (json : Bytes) : GetConfig := ofDoc A (A.read json)

end GetConfig

structure Benchmark where
  outboundSize : Option Int64 := none
  inboundSize : Option Int64 := none
  payload : Option Bytes := none
  error : Option Bytes := none
  objuuid : Option Bytes := none
  coluuid : Option Bytes := none

namespace Benchmark

def toDoc (f : Benchmark) : Json :=
  let doc := Json.null.set (bytes "type") (.str (bytes "benchmark"))
  let doc := setOptI64 doc "outbound_size" f.outboundSize
  let doc := setOptI64 doc "inbound_size" f.inboundSize
  let doc := setOptStr doc "payload" f.payload
  let doc := setOptStr doc "error" f.error
  let doc := setOptStr doc "objuuid" f.objuuid
  setOptStr doc "coluuid" f.coluuid

def toJson (A : ArduinoJson) (f : Benchmark) : Bytes := A.serializeJson f.toDoc

def ofDoc (A : ArduinoJson) (doc : Json) : Benchmark where
  outboundSize := getOptI64 A (doc.get (bytes "outbound_size"))
  inboundSize := getOptI64 A (doc.get (bytes "inbound_size"))
  payload := getOptStr A (doc.get (bytes "payload"))
  error := getOptStr A (doc.get (bytes "error"))
  objuuid := getOptStr A (doc.get (bytes "objuuid"))
  coluuid := getOptStr A (doc.get (bytes "coluuid"))

def fromJson (A : ArduinoJson) (json : Bytes) : Benchmark := ofDoc A (A.read json)

end Benchmark

inductive ControlFormType where
  | Benchmark | GetConfig | Unknown
  deriving DecidableEq

def controlFormTypeOf (type : Bytes) : ControlFormType :=
  if type = bytes "benchmark" then .Benchmark
  else if type = bytes "get_config" then .GetConfig
  else .Unknown

def controlFormType (A : ArduinoJson) (json : Bytes) : ControlFormType :=
  controlFormTypeOf (typeOfDoc (A.read json))

theorem GetConfig.docAround_within {n : Nat} (f : GetConfig) {config : Json} (h : config.Within n) :
    (f.docAround config).Within (n + 1) :=
  setOptStr_within (setOptStr_within (setOptStr_within
    ((Json.Within.null.set _ (.str _)).set _ h) _ _) _ _) _ _

/-- A form that carries the text of a document is written like one that carries the document. -/
theorem GetConfig.toJson_serialized {A : ArduinoJson} (lawful : A.Lawful)
    (f : GetConfig) (config : Json) :
    toJson A { f with configJson := some (A.serializeJson config) } =
      A.serializeJson (f.docAround config) := by
  have members : ∀ v, f.docAround v = .obj ([(bytes "type", .str (bytes "get_config"))] ++
      (bytes "config", v) :: [(bytes "error", optJson .str f.error),
        (bytes "objuuid", optJson .str f.objuuid), (bytes "coluuid", optJson .str f.coluuid)]) := by
    intro v
    simp [docAround, setOptStr, Json.set, Json.insert]
  calc toJson A { f with configJson := some (A.serializeJson config) }
      = A.serializeJson (f.docAround (.raw (A.serializeJson config))) := rfl
    _ = A.serializeJson (f.docAround config) := by
      rw [members, members]
      exact lawful.serialize_raw _ _ _ _

theorem Benchmark.toDoc_within {n : Nat} (f : Benchmark) : f.toDoc.Within (n + 1) :=
  setOptStr_within (setOptStr_within (setOptStr_within (setOptStr_within (setOptI64_within
    (setOptI64_within (Json.Within.null.set _ (.str _)) _ _) _ _) _ _) _ _) _ _) _ _

theorem GetConfig.docAround_ne_null (f : GetConfig) (config : Json) :
    f.docAround config ≠ .null := by
  simp [docAround, setOptStr, Json.set]

theorem Benchmark.toDoc_ne_null (f : Benchmark) : f.toDoc ≠ .null := by
  simp [toDoc, setOptI64, setOptStr, Json.set]

end Stembot
