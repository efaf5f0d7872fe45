/-
  Why a document could not be loaded.

  Each cause is a constructor; `Failure.message` is the wording of all of them.
-/
import ApiDigest.Text

namespace ApiDigest

/-! ## Causes from outside -/

/-- Why a file could not be used, in the terms of the operating system. -/
inductive FileFault where
  | notFound
  | alreadyExists
  | notADirectory
  | isADirectory
  /-- The bytes are not text. -/
  | notText
  /-- Anything else, in the system's words. -/
  | other (text : String)
deriving DecidableEq, Repr

/-- The wording of a file fault. -/
def FileFault.message : FileFault → String
  | notFound => "No such file or directory (os error 2)"
  | alreadyExists => "File exists (os error 17)"
  | notADirectory => "Not a directory (os error 20)"
  | isADirectory => "Is a directory (os error 21)"
  | notText => "stream did not contain valid UTF-8"
  | other text => text

/-- Why an address is no address. -/
inductive UrlFault where
  | emptyHost
  | invalidIpv6
  | invalidPort
deriving DecidableEq, Repr

/-- The wording of an address fault. -/
def UrlFault.message : UrlFault → String
  | emptyHost => "empty host"
  | invalidIpv6 => "invalid IPv6 address"
  | invalidPort => "invalid port number"

/-- The standard phrases for the statuses of answers. -/
def statusPhrases : List (Nat × String) :=
  [(100, "Continue"), (101, "Switching Protocols"), (102, "Processing"), (103, "Early Hints"),
    (200, "OK"), (201, "Created"), (202, "Accepted"), (203, "Non Authoritative Information"),
    (204, "No Content"), (205, "Reset Content"), (206, "Partial Content"), (207, "Multi-Status"),
    (208, "Already Reported"), (226, "IM Used"),
    (300, "Multiple Choices"), (301, "Moved Permanently"), (302, "Found"), (303, "See Other"),
    (304, "Not Modified"), (305, "Use Proxy"), (307, "Temporary Redirect"),
    (308, "Permanent Redirect"),
    (400, "Bad Request"), (401, "Unauthorized"), (402, "Payment Required"), (403, "Forbidden"),
    (404, "Not Found"), (405, "Method Not Allowed"), (406, "Not Acceptable"),
    (407, "Proxy Authentication Required"), (408, "Request Timeout"), (409, "Conflict"),
    (410, "Gone"), (411, "Length Required"), (412, "Precondition Failed"),
    (413, "Payload Too Large"), (414, "URI Too Long"), (415, "Unsupported Media Type"),
    (416, "Range Not Satisfiable"), (417, "Expectation Failed"), (418, "I\x27m a teapot"),
    (421, "Misdirected Request"), (422, "Unprocessable Entity"), (423, "Locked"),
    (424, "Failed Dependency"), (425, "Too Early"), (426, "Upgrade Required"),
    (428, "Precondition Required"), (429, "Too Many Requests"),
    (431, "Request Header Fields Too Large"), (451, "Unavailable For Legal Reasons"),
    (500, "Internal Server Error"), (501, "Not Implemented"), (502, "Bad Gateway"),
    (503, "Service Unavailable"), (504, "Gateway Timeout"), (505, "HTTP Version Not Supported"),
    (506, "Variant Also Negotiates"), (507, "Insufficient Storage"), (508, "Loop Detected"),
    (510, "Not Extended"), (511, "Network Authentication Required")]

/-- A status with its standard phrase. -/
def statusText (status : Nat) : String :=
  let phrase := match statusPhrases.find? fun entry => entry.1 = status with
    | some entry => entry.2
    | none => "<unknown status code>"
  toString status ++ " " ++ phrase

/-! ## Failures -/

/-- Why a document could not be loaded. -/
inductive Failure where
  /-- There is no such file. -/
  | notFound (path : String)
  /-- The file cannot be read as text. -/
  | unreadable (path : String) (fault : FileFault)
  /-- The text is in neither notation that it may be in. -/
  | unparsable (origin detail : String)
  /-- The document is in no known dialect. -/
  | unrecognized (origin : String)
  /-- The address is no address. -/
  | invalidUrl (url : String) (fault : UrlFault)
  /-- No connection. -/
  | unreachable (url detail : String)
  /-- The server answered with a status other than success. -/
  | status (url : String) (code : Nat)
  /-- No candidate address under a base address had a document. -/
  | undiscovered (base : String) (tried : List String)
deriving DecidableEq, Repr

/-- The wording of a failure. -/
def Failure.message : Failure → String
  | notFound path => "Cannot find spec file: " ++ path ++ ". Check the path and try again."
  | unreadable path fault => "Failed to read " ++ path ++ ": " ++ fault.message
  | unparsable origin detail => "Failed to parse " ++ origin ++ ": " ++ detail
  | unrecognized origin =>
    "Unrecognized spec format in " ++ origin ++ ". Expected OpenAPI 3.x or Swagger 2.0."
  | invalidUrl url fault => "Invalid URL " ++ url ++ ": " ++ fault.message
  | unreachable url detail => "Failed to fetch spec from " ++ url ++ ": " ++ detail
  | status url code => "Failed to fetch spec from " ++ url ++ ": " ++ statusText code
  | undiscovered base tried =>
    "Could not find an API spec at " ++ base ++ ". Tried:\n" ++
      String.intercalate "\n" (tried.map fun url => "  - " ++ url)

end ApiDigest
