import DirectoryReconcile.Filter.Address
import DirectoryReconcile.Filter.Certificate
import DirectoryReconcile.Filter.HostName
import DirectoryReconcile.Filter.Inventory
import DirectoryReconcile.Filter.Ports
import DirectoryReconcile.Filter.Template
import DirectoryReconcile.Filter.UnitName
import DirectoryReconcile.Json.Reader
import DirectoryReconcile.Text.Blank

/-!
# Text filters by name

Each filter turns an input and its extra arguments into one text or a list of texts.
-/

namespace DirectoryReconcile

inductive Filter where
  | serverAddresses
  | portFlags
  | portMappings
  | distinguishedName
  | domain
  | fillEach
  | fillAndJoin
  | certificate
  | lastOctet
  | reverseAddress
  | reverseZone
  | shortName
  | unitName
deriving DecidableEq, Repr

/-- Why a filter gives no result. -/
inductive FilterError where
  | unknown (name : String)
  | arguments (filter : Filter)
  | placeholder (template : String)
  | notJson (filter : Filter)
deriving DecidableEq, Repr

inductive FilterResult where
  | text (s : String)
  | list (items : List String)
deriving DecidableEq, Repr

namespace FilterResult

/-- A list is shown with one item on each line. -/
def display : FilterResult → String
  | .text s => s
  | .list items => Text.joinWith "\n" items

end FilterResult

namespace Filter

/-- Every filter, in the order of their names. -/
def all : List Filter :=
  [.serverAddresses, .portFlags, .portMappings, .distinguishedName, .domain, .fillEach,
    .fillAndJoin, .certificate, .lastOctet, .reverseAddress, .reverseZone, .shortName, .unitName]

def name : Filter → String
  | .serverAddresses => "dns_server_ips"
  | .portFlags => "docker_port_args"
  | .portMappings => "docker_port_list"
  | .distinguishedName => "domain_to_dn"
  | .domain => "domainname"
  | .fillEach => "format_map"
  | .fillAndJoin => "format_map_str"
  | .certificate => "ipa_cert_to_pem"
  | .lastOctet => "last_octet"
  | .reverseAddress => "reverse_ip"
  | .reverseZone => "reverse_zone"
  | .shortName => "shortname"
  | .unitName => "systemd_escape"

def ofName? (name : String) : Option Filter := all.find? fun filter ↦ filter.name = name

/-- The items of a list given as one text, between commas and blanks. -/
def items (input : String) : List String := Text.words (fun c ↦ c = ',' || Text.isBlank c) input

/-- What the extra arguments of a filter must be. -/
def expectation : Filter → String
  | .reverseAddress => "an optional 'pad' argument"
  | .fillEach => "a format string"
  | .fillAndJoin => "a format string and an optional separator"
  | _ => "no arguments"

/-- Whether the first extra argument of an address reversal asks for four octets. -/
def padding? : List String → Option Bool
  | [] => some false
  | choice :: _ =>
    if choice ∈ ["pad", "true", "yes", "1"] then some true
    else if choice ∈ ["false", "no", "0"] then some false
    else none

def filled (template : String) (items : List String) : Except FilterError (List String) :=
  match Template.fillEach? template items with
  | some texts => .ok texts
  | none => .error (.placeholder template)

/-- The result of a filter for an input and its extra arguments. -/
def apply (filter : Filter) (input : String) (arguments : List String) :
    Except FilterError FilterResult :=
  match filter with
  | .shortName => .ok (.text (HostName.short input))
  | .domain => .ok (.text (HostName.domain input))
  | .distinguishedName => .ok (.text (HostName.distinguishedName input))
  | .reverseAddress =>
    match padding? arguments with
    | some true => .ok (.text (Address.reversePadded input))
    | some false => .ok (.text (Address.reverse input))
    | none => .error (.arguments filter)
  | .reverseZone => .ok (.text (Address.reverseZone input))
  | .lastOctet => .ok (.text (Address.lastOctet input))
  | .unitName => .ok (.text (UnitName.escape input))
  | .certificate => .ok (.text (Certificate.wrap input))
  | .serverAddresses =>
    match Json.parse? input with
    | some inventory => .ok (.list (Inventory.serverAddresses inventory))
    | none => .error (.notJson filter)
  | .portMappings => .ok (.list (Ports.mappings (items input)))
  | .portFlags => .ok (.text (Ports.flags (items input)))
  | .fillEach =>
    match arguments with
    | [template] => (filled template (items input)).map .list
    | _ => .error (.arguments filter)
  | .fillAndJoin =>
    match arguments with
    | [template] => (filled template (items input)).map fun texts ↦ .text (String.join texts)
    | [template, separator] =>
      (filled template (items input)).map fun texts ↦ .text (Text.joinWith separator texts)
    | _ => .error (.arguments filter)

/-- The result of the filter with this name. -/
def applyNamed (name input : String) (arguments : List String) : Except FilterError FilterResult :=
  match ofName? name with
  | some filter => filter.apply input arguments
  | none => .error (.unknown name)

end Filter

namespace FilterError

def message : FilterError → String
  | .unknown name => "unknown filter '" ++ name ++ "'"
  | .arguments filter => "filter '" ++ filter.name ++ "' expects " ++ filter.expectation
  | .placeholder template =>
    "unsupported placeholder in format string '" ++ template ++ "' (use \x7b\x7d or \x7b0\x7d)"
  | .notJson filter => "filter '" ++ filter.name ++ "' needs JSON input"

end FilterError

end DirectoryReconcile
