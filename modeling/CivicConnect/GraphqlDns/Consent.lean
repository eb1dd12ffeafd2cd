import CivicConnect.Json.Value
import CivicConnect.Library.PercentEncoding

/-!
# The consent client

The client asks the consent API whether an identity permits DNS operations.
The API is outside of this program: it answers every request as it likes.
-/

namespace CivicConnect.GraphqlDns

open Json

structure ConsentRequest where
  url : String
  body : JsonValue

inductive ConsentAnswer where
  | unreachable (message : String)
  | response (status : ℕ) (body : Except String JsonValue)

inductive ConsentError where
  | transport (message : String)
  | api (status : ℕ)
  | notConsented (identity : String)
  deriving DecidableEq, Repr

def ConsentError.display (statusText : ℕ → String) : ConsentError → String
  | transport message => message
  | api status => "Consent API error: " ++ statusText status
  | notConsented identity =>
      "Identity " ++ identity ++ " has not consented to DNS operations. " ++
        "Please enable DNS operations in your consent preferences."

/-- `urlencoding::encode`, after its documentation: letters, digits and `-._~`
stay, and any other byte of the text is escaped. -/
structure UrlEncoding where
  encode : String → String
  decode_encode : ∀ s, PercentEncoding.decode (encode s) = some s
  mem_encode : ∀ s, ∀ c ∈ (encode s).toList, PercentEncoding.unreserved c = true ∨ c = '%'
  encode_unreserved : ∀ s, (∀ c ∈ s.toList, PercentEncoding.unreserved c = true) → encode s = s

/-- Percent encoding is such an encoding. -/
def UrlEncoding.percent : UrlEncoding where
  encode s := String.ofList (PercentEncoding.encode PercentEncoding.unreserved
    (PercentEncoding.utf8 s))
  decode_encode := PercentEncoding.decode_encode PercentEncoding.plain_unreserved
  mem_encode s c hc := PercentEncoding.mem_encode_unreserved (String.toList_ofList ▸ hc)
  encode_unreserved s h := by
    rw [PercentEncoding.encode_kept PercentEncoding.plain_unreserved h, String.ofList_toList]

structure ConsentClient where
  baseUrl : String
  urlencoding : UrlEncoding

namespace ConsentClient

def checkRequest (client : ConsentClient) (identity : String) : ConsentRequest :=
  ⟨client.baseUrl ++ "/consent/" ++ client.urlencoding.encode identity ++ "/check",
    .object [("operation", .string "dnsOperations")]⟩

def checkDnsOperationsConsent (client : ConsentClient) (api : ConsentRequest → ConsentAnswer)
    (identity : String) : Except ConsentError Bool :=
  match api (client.checkRequest identity) with
  | .unreachable message => .error (.transport message)
  | .response status body =>
      if 200 ≤ status ∧ status < 300 then
        match body with
        | .error message => .error (.transport message)
        | .ok result => .ok ((result.index "allowed").asBool.getD false)
      else if status = 404 then .ok false
      else .error (.api status)

def requireDnsConsent (client : ConsentClient) (api : ConsentRequest → ConsentAnswer)
    (identity : String) : Except ConsentError Unit :=
  match client.checkDnsOperationsConsent api identity with
  | .error err => .error err
  | .ok true => .ok ()
  | .ok false => .error (.notConsented identity)

/-- The check passes only on a successful answer that says so in plain words:
every other status, body or failure refuses. -/
theorem requireDnsConsent_ok_iff (client : ConsentClient) (api : ConsentRequest → ConsentAnswer)
    (identity : String) :
    client.requireDnsConsent api identity = .ok () ↔
      ∃ status result, api (client.checkRequest identity) = .response status (.ok result) ∧
        200 ≤ status ∧ status < 300 ∧ (result.index "allowed").asBool = some true := by
  rw [requireDnsConsent, checkDnsOperationsConsent]
  cases api (client.checkRequest identity) with
  | unreachable message => simp
  | response status body =>
      cases body with
      | error message => grind
      | ok result =>
          cases hallowed : (result.index "allowed").asBool with
          | none => grind
          | some allowed => cases allowed <;> grind

end ConsentClient

end CivicConnect.GraphqlDns
