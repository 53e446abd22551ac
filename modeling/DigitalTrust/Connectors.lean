/-
# Connector records

What the services that use a tenant's connectors share: the connector types of the entities and of
the port layer, the record of `connector_credential`, and the encryption of its credentials.
`Encryption` carries what is assumed of AES-GCM.
-/
import DigitalTrust.Schema

namespace DigitalTrust.Connectors

/-! ## Connector types -/

/-- `ConnectorType` of `connection.entity.ts`. -/
inductive ConnectorType where
  | traction
  | credo
  deriving DecidableEq

def ConnectorType.value : ConnectorType → String
  | .traction => "traction"
  | .credo => "credo"

/-- `ConnectorType` of the port layer. -/
inductive PortConnectorType where
  | traction
  | credo
  deriving DecidableEq

def PortConnectorType.value : PortConnectorType → String
  | .traction => "traction"
  | .credo => "credo"

def PortConnectorType.values : List PortConnectorType := [.traction, .credo]

def toPortConnectorType (connectorType : ConnectorType) : Option PortConnectorType :=
  PortConnectorType.values.find? fun value => value.value = connectorType.value

/-- The port layer knows every connector type of the entities. -/
theorem toPortConnectorType_isSome (t : ConnectorType) : (toPortConnectorType t).isSome := by
  cases t <;> decide

/-- Different connector types stay different in the port layer. -/
theorem toPortConnectorType_inj {t t' : ConnectorType}
    (h : toPortConnectorType t = toPortConnectorType t') : t = t' := by
  revert h
  cases t <;> cases t' <;> decide

/-! ## Rows -/

/-- A row of `connector_credential`; `B` is the type of a stored ciphertext. -/
structure Connector (B : Type) where
  id : String
  tenantId : String
  connectorType : ConnectorType
  credentialsEncrypted : B
  endpointUrl : String
  active : Bool
  keyVersion : ℕ
  agentLogIdHash : Option String
  deriving DecidableEq

/-! ## Encryption -/

/-- The encryption of values of type `V` as ciphertexts of type `B`, under keys with a version;
`N` names the nonces that encryptions draw. -/
structure Encryption (N V B : Type) where
  encrypt : (keyVersion : ℕ) → (nonce : N) → V → B
  decrypt : B → (keyVersion : ℕ) → Except Failure V
  decrypt_encrypt : ∀ k n v, decrypt (encrypt k n v) k = .ok v
  nonce_inj : ∀ {k n v k' n' v'}, encrypt k n v = encrypt k' n' v' → n = n'

end DigitalTrust.Connectors
