import OutboxRelay.Event
import OutboxRelay.Journal
import OutboxRelay.StoreError
import OutboxRelay.Text.Quoted
import OutboxRelay.Text.Utf8

/-! Answers over HTTP, the reason phrases of their status codes, and the two errors that a request
can meet. -/

namespace OutboxRelay.Http

open Text

def reasons : List (Nat × String) :=
  [(100, "Continue"), (101, "Switching Protocols"), (102, "Processing"), (103, "Early Hints"),
   (200, "OK"), (201, "Created"), (202, "Accepted"), (203, "Non Authoritative Information"),
   (204, "No Content"), (205, "Reset Content"), (206, "Partial Content"), (207, "Multi-Status"),
   (208, "Already Reported"), (226, "IM Used"), (300, "Multiple Choices"),
   (301, "Moved Permanently"), (302, "Found"), (303, "See Other"), (304, "Not Modified"),
   (305, "Use Proxy"), (307, "Temporary Redirect"), (308, "Permanent Redirect"),
   (400, "Bad Request"), (401, "Unauthorized"), (402, "Payment Required"), (403, "Forbidden"),
   (404, "Not Found"), (405, "Method Not Allowed"), (406, "Not Acceptable"),
   (407, "Proxy Authentication Required"), (408, "Request Timeout"), (409, "Conflict"),
   (410, "Gone"), (411, "Length Required"), (412, "Precondition Failed"),
   (413, "Payload Too Large"), (414, "URI Too Long"), (415, "Unsupported Media Type"),
   (416, "Range Not Satisfiable"), (417, "Expectation Failed"), (418, "I'm a teapot"),
   (421, "Misdirected Request"), (422, "Unprocessable Entity"), (423, "Locked"),
   (424, "Failed Dependency"), (425, "Too Early"), (426, "Upgrade Required"),
   (428, "Precondition Required"), (429, "Too Many Requests"),
   (431, "Request Header Fields Too Large"), (451, "Unavailable For Legal Reasons"),
   (500, "Internal Server Error"), (501, "Not Implemented"), (502, "Bad Gateway"),
   (503, "Service Unavailable"), (504, "Gateway Timeout"), (505, "HTTP Version Not Supported"),
   (506, "Variant Also Negotiates"), (507, "Insufficient Storage"), (508, "Loop Detected"),
   (510, "Not Extended"), (511, "Network Authentication Required")]

def statusText (code : Nat) : String :=
  Nat.repr code ++ " " ++ (reasons.lookup code).getD "<unknown status code>"

structure Response where
  status : Nat
  headers : List (String × Bytes)
  body : String

namespace Response

def ofStatus (status : Nat) : Response := ⟨status, [], ""⟩

def withHeader (r : Response) (name : String) (value : Bytes) : Response :=
  { r with headers := r.headers ++ [(name, value)] }

def json (status : Nat) (body : List Char) : Response :=
  ⟨status, [("content-type", utf8 "application/json")], String.ofList body⟩

end Response

inductive RequestError
  | notFound
  | internal (cause : StoreError)

namespace RequestError

def kind : RequestError → String
  | notFound => "NOT_FOUND"
  | internal _ => "INTERNAL"

def message : RequestError → String
  | notFound => "not found"
  | internal _ => "internal server error"

def status : RequestError → Nat
  | notFound => 404
  | internal _ => 500

def journal : RequestError → Journal
  | notFound => []
  | internal cause => [⟨.error, "internal error",
      [("error", cause.outermost), ("kind", "INTERNAL")]⟩]

def response (e : RequestError) : Response :=
  .json e.status (jsonObject [("kind", jsonText e.kind), ("message", jsonText e.message)])

end RequestError

def readyStatus (ready : Bool) : Nat := if ready then 200 else 503

def statsBody (s : Stats) : List Char :=
  jsonObject [("new", (toString s.new.toNat).toList),
    ("in_progress", (toString s.inProgress.toNat).toList),
    ("published", (toString s.published.toNat).toList),
    ("failed", (toString s.failed.toNat).toList)]

end OutboxRelay.Http
