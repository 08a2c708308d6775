import ChangeDesk.Json.Record

/-!
# Push certificates

A push may be signed. The server says of the certificate which key signed it, how far the key is
trusted and what is wrong with it.
-/

namespace ChangeDesk

/-- How far a key is trusted. -/
inductive KeyStatus where
  | bad
  | ok
  | trusted
  | unknown
deriving DecidableEq, Repr, Inhabited

namespace KeyStatus

def name : KeyStatus → String
  | .bad => "BAD"
  | .ok => "OK"
  | .trusted => "TRUSTED"
  | .unknown => "UNKNOWN"

/-- Any name that is not known stands for an unknown status. -/
def codec : Json.Codec KeyStatus :=
  .enumeration ⟨[.bad, .ok, .trusted, .unknown], name, some .unknown⟩

end KeyStatus

/-- The key that signed a push. -/
structure SigningKey where
  id : Option String
  fingerprint : Option String
  status : Option KeyStatus
  problems : List String
deriving DecidableEq, Repr, Inhabited

namespace SigningKey

/-- The key of which nothing is known. -/
def blank : SigningKey := ⟨none, none, none, []⟩

/-- The members of a key in a document. -/
def record : Json.Record SigningKey where
  name := "GpgKeyInfo"
  blank := blank
  fields :=
    [.optional "id" Json.Codec.text SigningKey.id fun v k => { k with id := v },
     .optional "fingerprint" Json.Codec.text SigningKey.fingerprint
        fun v k => { k with fingerprint := v },
     .optional "status" KeyStatus.codec SigningKey.status fun v k => { k with status := v },
     .plain "problems" Json.Codec.text.list SigningKey.problems
        fun v k => { k with problems := v }]

def codec : Json.Codec SigningKey := record.codec

end SigningKey

/-- The certificate of a signed push. -/
structure Certificate where
  text : String
  key : SigningKey
deriving DecidableEq, Repr, Inhabited

namespace Certificate

/-- The members of a certificate in a document. -/
def record : Json.Record Certificate where
  name := "PushCertificate"
  blank := ⟨"", .blank⟩
  fields :=
    [.plain "certificate" Json.Codec.text Certificate.text fun v c => { c with text := v },
     .plain "key" SigningKey.codec Certificate.key fun v c => { c with key := v }]

def codec : Json.Codec Certificate := record.codec

end Certificate

end ChangeDesk
