import LittleMan.Value

/-! What a host is told while names are installed and removed: an event, how much it matters, the
channel it comes over, and its words. -/
namespace LittleMan

inductive Notice where
  | modeHeld (name : Text)
  | modeDefined (name kind : Text)
  | modeRemoved (name : Text)
  | contentTypeHeld (contentType : Text)
  | ready (callbacks : Nat)
  | installed (names : List Text)
  | notInstalled (names : List Value)
  | uninstalled (names : List Text)
  | refreshed (views : Nat)
  deriving Repr

namespace Notice

inductive Level where
  | debug
  | warning
  deriving DecidableEq, Repr

def Level.name : Level → Text
  | .debug => "DEBUG".toList
  | .warning => "WARNING".toList

def root : Text := "lmcmode".toList

def channelOf (name : Text) : Text :=
  if name == root || (root ++ ['.']).isPrefixOf name then name else root ++ '.' :: name

def level : Notice → Level
  | .modeHeld _ | .contentTypeHeld _ | .notInstalled _ => .warning
  | _ => .debug

def channel : Notice → Text
  | .modeHeld _ | .modeDefined _ _ | .modeRemoved _ | .contentTypeHeld _ => channelOf "registry".toList
  | .ready _ => channelOf "workspace".toList
  | _ => channelOf "plugin".toList

def displayNames (names : List Text) : Text := (Value.list (names.map .text)).display

def message : Notice → Text
  | .modeHeld name =>
    "Mode ".toList ++ name.quoted ++ " already registered by another owner; leaving it in place".toList
  | .modeDefined name kind =>
    "Registered mode ".toList ++ name.quoted ++ " (".toList ++ kind ++ ")".toList
  | .modeRemoved name => "Removed mode ".toList ++ name.quoted
  | .contentTypeHeld contentType =>
    "MIME ".toList ++ contentType.quoted ++ " already registered by another owner; leaving it in place".toList
  | .ready n =>
    "Layout ready, running ".toList ++ Decimal.natural n ++ " callback(s)".toList
  | .installed names => "Registered LMC modes ".toList ++ displayNames names
  | .notInstalled names =>
    "LMC mode not installed for ".toList ++ (Value.list names).display ++
      "; names held by another owner".toList
  | .uninstalled names => "Unregistered LMC modes ".toList ++ displayNames names
  | .refreshed n => "Refreshed ".toList ++ Decimal.natural n ++ " LMC view(s)".toList

end Notice
end LittleMan
