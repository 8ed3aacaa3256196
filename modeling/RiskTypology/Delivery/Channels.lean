import RiskTypology.Accumulator.Gateway
import RiskTypology.Delivery.Url.Basic
import RiskTypology.Model.Event

/-!
# Channels

Payloads are posted to the address of every channel they are for, or to the default address when
they are for none. All channels are resolved before anything is sent, and the first delivery that
fails ends the rest.
-/

namespace RiskTypology

/-- The channels as they are configured. -/
structure ChannelSettings where
  defaultUrl : String
  interdictionName : String
  interdictionUrl : String
deriving DecidableEq, Repr

namespace ChannelSettings

/-- The record's wire fields. -/
def shape : Shape := ⟨"ChannelConfig", ["default_url", "interdiction_name", "interdiction_url"]⟩

/-- Read the settings of the channels. -/
def read : Reader ChannelSettings :=
  Draft.record shape fun p ↦
    ChannelSettings.mk <$> p.required "default_url" Draft.text
      <*> p.orElse "interdiction_name" "cms" Draft.text
      <*> p.required "interdiction_url" Draft.text

end ChannelSettings

/-- Channels with their addresses. -/
structure Channels where
  defaultUrl : Url
  interdictionName : String
  interdictionUrl : Url

/-- What a server answers, if it is reached. -/
inductive Reply where
  | status (code : Nat)
  | unreachable
deriving DecidableEq, Repr

/-- Why a payload was not delivered. -/
inductive DeliveryFault where
  | unknownChannel (name : String)
  /-- No request can be made to such an address. -/
  | unsupported (url : Url)
  | unreachable (url : Url)
  | refused (code : Nat) (url : Url)
deriving DecidableEq, Repr

/-- The usual words for the statuses of failed requests. -/
def statusReasons : List (Nat × String) :=
  [(400, "Bad Request"), (401, "Unauthorized"), (402, "Payment Required"), (403, "Forbidden"),
    (404, "Not Found"), (405, "Method Not Allowed"), (406, "Not Acceptable"),
    (407, "Proxy Authentication Required"), (408, "Request Timeout"), (409, "Conflict"),
    (410, "Gone"), (411, "Length Required"), (412, "Precondition Failed"),
    (413, "Payload Too Large"), (414, "URI Too Long"), (415, "Unsupported Media Type"),
    (416, "Range Not Satisfiable"), (417, "Expectation Failed"), (418, "I'm a teapot"),
    (421, "Misdirected Request"), (422, "Unprocessable Entity"), (423, "Locked"),
    (424, "Failed Dependency"), (425, "Too Early"), (426, "Upgrade Required"),
    (428, "Precondition Required"), (429, "Too Many Requests"),
    (431, "Request Header Fields Too Large"), (451, "Unavailable For Legal Reasons"),
    (500, "Internal Server Error"), (501, "Not Implemented"), (502, "Bad Gateway"),
    (503, "Service Unavailable"), (504, "Gateway Timeout"), (505, "HTTP Version Not Supported"),
    (506, "Variant Also Negotiates"), (507, "Insufficient Storage"), (508, "Loop Detected"),
    (510, "Not Extended"), (511, "Network Authentication Required")]

/-- The fault in words. -/
def DeliveryFault.message : DeliveryFault → String
  | .unknownChannel name => (Failure.dispatch ("unknown channel " ++ name)).message
  | .unsupported url => "builder error for url (" ++ url.toText ++ ")"
  | .unreachable url => "error sending request for url (" ++ url.toText ++ ")"
  | .refused code url =>
    let side := if code < 500 then "client" else "server"
    let reason := (statusReasons.lookup code).getD "<none>"
    "HTTP status " ++ side ++ " error (" ++ toString code ++ " " ++ reason ++ ") for url (" ++
      url.toText ++ ")"

namespace Channels

/-- Read the address of a channel. -/
def address (name text : String) : Except Failure Url :=
  match Url.parse text with
  | .ok url => .ok url
  | .error fault =>
    .error (.config ("invalid url for channel " ++ name ++ ": " ++ fault.message))

/-- Channels from their settings; the default address is looked at first. -/
def ofSettings (s : ChannelSettings) : Except Failure Channels := do
  let defaultUrl ← address "default" s.defaultUrl
  let interdictionUrl ← address s.interdictionName s.interdictionUrl
  return ⟨defaultUrl, s.interdictionName, interdictionUrl⟩

/-- The address of a channel. -/
def find? (c : Channels) (name : String) : Option Url :=
  if name = c.interdictionName then some c.interdictionUrl else none

/-- The addresses a payload goes to. -/
def resolve (c : Channels) (names : List String) : Except DeliveryFault (List Url) :=
  if names.isEmpty then .ok [c.defaultUrl]
  else names.mapM fun name ↦
    match c.find? name with
    | some url => .ok url
    | none => .error (.unknownChannel name)

/-- What a reply means: anything but a client's or a server's error is fine. -/
def judge (url : Url) : Reply → Except DeliveryFault Unit
  | .unreachable => .error (.unreachable url)
  | .status code => if 400 ≤ code ∧ code < 600 then .error (.refused code url) else .ok ()

section

variable {m : Type → Type} [Monad m]

/-- Post to addresses one after the other, up to the first that fails. -/
def postAll (post : Url → m Reply) : List Url → m (Except DeliveryFault Unit)
  | [] => pure (.ok ())
  | url :: rest => do
    let shown := url.withoutCredentials
    if shown.isHttp then
      match judge shown (← post url) with
      | .ok () => postAll post rest
      | .error fault => pure (.error fault)
    else pure (.error (.unsupported shown))

/-- Deliver to the channels of some names. -/
def deliver (c : Channels) (post : Url → m Reply) (names : List String) :
    m (Except DeliveryFault Unit) :=
  match c.resolve names with
  | .ok urls => postAll post urls
  | .error fault => pure (.error fault)

end

end Channels
end RiskTypology
