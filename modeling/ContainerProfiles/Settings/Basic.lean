import ContainerProfiles.Identity
import ContainerProfiles.RuntimeType

namespace ContainerProfiles

-- The settings a deployment runs under.

structure Settings where
  -- In milliseconds.
  lockTimeout : UInt64 := 10000
  defaultVersion : String := "1.0.0"
  defaultProfile : ProfileId := "default"
  currentContainer : ContainerId := "root"
  runtime : RuntimeType := .other
deriving DecidableEq

inductive SettingsError where
  | unreadable (path : String)
  | zeroTimeout
  | timeoutTooLarge
  | defaultVersion (reason : ProfileError)
  | emptyProfile
  | emptyContainer
  | noHome
deriving DecidableEq

namespace SettingsError

def message : SettingsError → String
  | unreadable path => "invalid config " ++ path
  | zeroTimeout => "lock_timeout_ms must be positive"
  | timeoutTooLarge => "out-of-range value for u64 type"
  | defaultVersion reason => "default_version: " ++ reason.message
  | emptyProfile => "default_profile must not be empty"
  | emptyContainer => "current_container must not be empty"
  | noHome => "HOME not set"

end SettingsError

namespace Settings

def version (s : Settings) : Except SettingsError Version :=
  (Version.read s.defaultVersion).mapError .defaultVersion

def check (s : Settings) : Except SettingsError Unit := do
  if s.lockTimeout = 0 then throw .zeroTimeout
  let _ ← s.version
  if Text.blank s.defaultProfile then throw .emptyProfile
  if Text.blank s.currentContainer then throw .emptyContainer

end Settings
end ContainerProfiles
