import SlotFrame.Data.Utf8
import SlotFrame.Source.Basic

/-! # Documents on the web

A request is answered with a status and a body, is not answered at all, or cannot be sent.

Main definitions: `Web`, `Web.target`, `Web.deliver`, `Web.unreachable`. -/

namespace SlotFrame

/-- What comes of a request. -/
inductive WebAnswer where
  | answered (status : Nat) (body : List UInt8)
  | unsent (reason : String)
  | stalled
  deriving DecidableEq, Repr

/-- A way to send requests. -/
abbrev Web (m : Type → Type) := Url → m WebAnswer

namespace Web

/-- The standard phrase for a status. -/
def reason? (status : Nat) : Option String :=
  [(100, "Continue"), (101, "Switching Protocols"), (102, "Processing"), (103, "Early Hints"),
   (200, "OK"), (201, "Created"), (202, "Accepted"), (203, "Non Authoritative Information"),
   (204, "No Content"), (205, "Reset Content"), (206, "Partial Content"), (207, "Multi-Status"),
   (208, "Already Reported"), (226, "IM Used"), (300, "Multiple Choices"),
   (301, "Moved Permanently"), (302, "Found"), (303, "See Other"), (304, "Not Modified"),
   (305, "Use Proxy"), (307, "Temporary Redirect"), (308, "Permanent Redirect"),
   (400, "Bad Request"), (401, "Unauthorized"), (402, "Payment Required"), (403, "Forbidden"),
   (404, "Not Found"), (405, "Method Not Allowed"), (406, "Not Acceptable"),
   (407, "Proxy Authentication Required"), (408, "Request Timeout"), (409, "Conflict"),
   (410, "Gone"), (411, "Length Required"), (412, "Precondition Failed"),
   (413, "Payload Too Large"), (414, "URI Too Long"), (415, "Unsupported Media Type"),
   (416, "Range Not Satisfiable"), (417, "Expectation Failed"), (418, "I'm a teapot"),
   (421, "Misdirected Request"), (422, "Unprocessable Entity"), (423, "Locked"),
   (424, "Failed Dependency"), (425, "Too Early"), (426, "Upgrade Required"),
   (428, "Precondition Required"), (429, "Too Many Requests"),
   (431, "Request Header Fields Too Large"), (451, "Unavailable For Legal Reasons"),
   (500, "Internal Server Error"), (501, "Not Implemented"), (502, "Bad Gateway"),
   (503, "Service Unavailable"), (504, "Gateway Timeout"), (505, "HTTP Version Not Supported"),
   (506, "Variant Also Negotiates"), (507, "Insufficient Storage"), (508, "Loop Detected"),
   (510, "Not Extended"), (511, "Network Authentication Required")].lookup status

/-- A status with its phrase. -/
def statusText (status : Nat) : String :=
  toString status ++ " " ++ (reason? status).getD "<unknown status code>"

/-- Whether a status stands for success. -/
def isSuccess (status : Nat) : Bool := 200 ≤ status && status < 300

/-- The target of a request: a web address with a host, or why there is none. -/
def target (u : Url) : Except String Url :=
  if u.host.any (! String.isEmpty ·) && (u.scheme = "http" || u.scheme = "https") then
    .ok u.withoutUser
  else .error ("builder error for url (" ++ u.render ++ ")")

/-- The target that a text writes. -/
def readTarget (text : String) : Except String Url :=
  match Url.read text none with
  | .ok u => target u
  | .error _ => .error "builder error"

/-- A web of which no address can be reached. -/
def unreachable {m : Type → Type} [Monad m] : Web m := fun u =>
  pure (.unsent ("error sending request for url (" ++ u.render ++ ")"))

/-- Sends a request unless there is nothing to send it to. -/
def send {m : Type → Type} [Monad m] (web : Web m) (address : Except String Url) : m WebAnswer :=
  match address with
  | .ok u => web u
  | .error reason => pure (.unsent reason)

/-- The delivery that an answer makes of a document. -/
def delivery (u : Url) : WebAnswer → Delivery
  | .unsent reason => .failed (.importFailed u.render ("Failed to fetch URL: " ++ reason))
  | .stalled => .stalled
  | .answered status body =>
    if isSuccess status then
      .text (match (utf8Lossy body).toList with
        | '\ufeff' :: rest => String.ofList rest
        | cs => String.ofList cs)
    else .failed (.importFailed u.render
      ("HTTP error " ++ statusText status ++ ": " ++ (reason? status).getD "Unknown"))

/-- Delivers the document behind a URL. -/
def deliver {m : Type → Type} [Monad m] (web : Web m) (u : Url) : m Delivery := do
  return delivery u (← send web (target u))

end Web

namespace Source

/-- Files of a reader, and documents of the web, which are known to exist only by fetching them. -/
def ofFilesAndWeb {m : Type → Type} [Monad m] (containsFile : String → m Bool)
    (readFile : String → m (Except String String)) (web : Web m) : Source m where
  contains
    | .file path => containsFile path
    | .url _ => pure true
  deliver
    | .file path => do
      match ← readFile path with
      | .ok s => return .text s
      | .error message => return .failed (.io message)
    | .url u => web.deliver u

end Source

end SlotFrame
