import FerroWg.Core.Types

/-!
# What the program calls and does not contain

Crates (`base64`, `toml`) and the parts of the standard library that rest on tables. No law
is assumed here: a theorem that needs one has it as a hypothesis.
-/

namespace FerroWg

class Externals where
  /-- `base64::engine::general_purpose::STANDARD`; the error is its message. -/
  base64Encode : List UInt8 → String
  base64Decode : String → Except String (List UInt8)
  /-- `IpAddr` as `FromStr` and `Display`. -/
  parseIp : String → Option IpAddr
  showIp : IpAddr → String
  /-- `toml::to_string_pretty` and `toml::from_str` at the two configuration types. -/
  wgToToml : WgConfig → Except String String
  appToToml : AppConfig → Except String String
  appFromToml : String → Except String AppConfig
  /-- `{:?}` of a string and of a character. -/
  debugStr : String → String
  debugChar : Char → String
  /-- `char::is_alphanumeric` and `str::to_lowercase`, over all of Unicode. -/
  isAlphanumeric : Char → Bool
  toLowercase : String → String
  /-- `{:.0}` of a single-precision float. -/
  formatRounded : Float32 → String

end FerroWg
