import HazardDispatch.Wire.Message

/-!
# Requests and responses

As far as the two servers look at them: a request has a method, a target, perhaps a content type, and
a body; a response has a status and what is in it.

`Response.reason` is the standard phrase for a status.
-/

namespace HazardDispatch.Http

structure Request where
  method : String
  /-- Path and query. -/
  target : String
  contentType : Option String
  body : List UInt8
deriving Repr

/-- The number of bytes that a body may have. -/
def bodyLimit : Nat := 2097152

def Request.isOversized (r : Request) : Bool := decide (bodyLimit < r.body.length)

/-- What a response holds. -/
inductive Content where
  | nothing
  | json (j : Json)
  | text (s : String)

structure Response where
  status : Nat
  content : Content

namespace Response

def empty (status : Nat) : Response := ⟨status, .nothing⟩

def json (status : Nat) (j : Json) : Response := ⟨status, .json j⟩

/-- An error that is explained. -/
def error (status : Nat) (message : String) : Response :=
  json status (ErrorResponse.toJson ⟨message⟩)

def headOnly (r : Response) : Response := empty r.status

end Response

/-- The statuses that have a standard phrase. -/
def phrases : List (Nat × String) :=
  [(100, "Continue"), (101, "Switching Protocols"), (102, "Processing"), (200, "OK"),
    (201, "Created"), (202, "Accepted"), (203, "Non Authoritative Information"),
    (204, "No Content"), (205, "Reset Content"), (206, "Partial Content"), (207, "Multi-Status"),
    (208, "Already Reported"), (226, "IM Used"), (300, "Multiple Choices"),
    (301, "Moved Permanently"), (302, "Found"), (303, "See Other"), (304, "Not Modified"),
    (305, "Use Proxy"), (307, "Temporary Redirect"), (308, "Permanent Redirect"),
    (400, "Bad Request"), (401, "Unauthorized"), (402, "Payment Required"), (403, "Forbidden"),
    (404, "Not Found"), (405, "Method Not Allowed"), (406, "Not Acceptable"),
    (407, "Proxy Authentication Required"), (408, "Request Timeout"), (409, "Conflict"),
    (410, "Gone"), (411, "Length Required"), (412, "Precondition Failed"),
    (413, "Payload Too Large"), (414, "URI Too Long"), (415, "Unsupported Media Type"),
    (416, "Range Not Satisfiable"), (417, "Expectation Failed"), (418, "I'm a teapot"),
    (421, "Misdirected Request"), (422, "Unprocessable Entity"), (423, "Locked"),
    (424, "Failed Dependency"), (425, "Too Early"), (426, "Upgrade Required"),
    (428, "Precondition Required"), (429, "Too Many Requests"),
    (431, "Request Header Fields Too Large"), (451, "Unavailable For Legal Reasons"),
    (500, "Internal Server Error"), (501, "Not Implemented"), (502, "Bad Gateway"),
    (503, "Service Unavailable"), (504, "Gateway Timeout"), (505, "HTTP Version Not Supported"),
    (506, "Variant Also Negotiates"), (507, "Insufficient Storage"), (508, "Loop Detected"),
    (510, "Not Extended"), (511, "Network Authentication Required")]

def phrase (status : Nat) : String := (phrases.lookup status).getD "unknown"

/-- The status announces a response that is still to come. -/
def isInterim (status : Nat) : Bool :=
  decide (100 ≤ status) && decide (status < 200) && status != 101

/-- A response with this status may have a body. -/
def mayHaveBody (status : Nat) : Bool := status != 101 && status != 204 && status != 304

def isSuccess (status : Nat) : Bool := decide (200 ≤ status) && decide (status < 300)

end HazardDispatch.Http
