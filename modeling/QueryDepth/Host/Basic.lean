import QueryDepth.File.FileError
import QueryDepth.File.Path
import QueryDepth.Introspection.Reply
import QueryDepth.Log

/-!
# What the commands ask of the machine

The commands read and write files, post a query, log and print. They run in any monad in which these
things can be asked for, so what they do can be stated and proved in one that is a plain function.
-/

namespace QueryDepth

class Host (m : Type → Type) where
  homes : m Homes
  readBytes (path : String) : m (Except FileError (List UInt8))
  writeBytes (path : String) (bytes : List UInt8) : m (Except FileError Unit)
  /-- Makes a directory in an existing one. -/
  makeDirectory (path : String) : m (Except FileError Unit)
  /-- What a path leads to, nothing if there is nothing. -/
  kindOf (path : String) : m (Except FileError (Option FileKind))
  /-- A reply, or the reason why there is none. -/
  post (request : Introspection.PostRequest) : m (Except String Introspection.Reply)
  log (record : LogRecord) : m Unit
  print (text : String) : m Unit

end QueryDepth
