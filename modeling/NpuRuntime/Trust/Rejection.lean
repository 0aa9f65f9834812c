import NpuRuntime.Host.Errno
import NpuRuntime.Text.Quoted

/-! # Rejections
Why a path was not trusted. Each reason but the limits carries the path that caused it. -/
namespace NpuRuntime

inductive Rejection where
  | invalidPath (path : String)
  | symlink (path : String)
  | notFound (path : String)
  | notRegular (path : String)
  | setId (path : String)
  | writable (path : String) (mode : Nat)
  | owner (path : String) (uid : Nat)
  | tooDeep (depth : Nat)
  | tooLarge (path : String) (size : Nat)
  | invalidSizeLimit (megabytes : Nat)
  | failed (path : String) (errno : Errno)
  deriving DecidableEq, Repr

namespace Rejection

def ofErrno (path : String) : Errno → Rejection
  | .noEntry => notFound path
  | e => failed path e

def octal (n : Nat) : String := String.ofList (Nat.toDigits 8 n)

def text : Rejection → String
  | invalidPath p => "invalid path " ++ Text.quoted p
  | symlink p => "symlink not allowed: " ++ p
  | notFound p => "no such file or directory: " ++ p
  | notRegular p => "not a regular file or directory: " ++ p
  | setId p => "setuid/setgid not allowed: " ++ p
  | writable p mode => "group or other writable: " ++ p ++ " (mode " ++ octal mode ++ ")"
  | owner p uid => "owner not root or current user: " ++ p ++ " (uid " ++ toString uid ++ ")"
  | tooDeep depth => "parent chain deeper than " ++ toString depth
  | tooLarge p size => "file too large: " ++ p ++ " (" ++ toString size ++ " bytes)"
  | invalidSizeLimit mb => "invalid size limit " ++ toString mb ++ " MB"
  | failed p e => "IO error on " ++ p ++ ": errno " ++ toString e.number

end Rejection

end NpuRuntime
