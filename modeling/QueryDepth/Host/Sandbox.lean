import QueryDepth.File.Tree
import QueryDepth.Host.Basic

/-!
# A machine that is a plain value

A sandbox holds a tree of files and the reply to every post, and keeps what was sent, logged and
printed. The commands run on it as functions of its state.
-/

namespace QueryDepth

structure Sandbox where
  tree : FileTree
  homes : Homes
  /-- What every post is answered with, if it is answered. -/
  reply : Option Introspection.Reply
  sent : List Introspection.PostRequest
  log : List LogRecord
  printed : String

namespace Sandbox

def start (tree : FileTree) (homes : Homes) (reply : Option Introspection.Reply) : Sandbox :=
  ⟨tree, homes, reply, [], [], ""⟩

/-- Takes over a changed tree, if there is one. -/
def changeTree (change : FileTree → Except FileError FileTree) :
    StateM Sandbox (Except FileError Unit) := fun s =>
  match change s.tree with
  | .ok tree => (.ok (), { s with tree })
  | .error e => (.error e, s)

instance : Host (StateM Sandbox) where
  homes s := (s.homes, s)
  readBytes path s := (s.tree.read path, s)
  writeBytes path bytes := changeTree fun tree => tree.write path bytes
  makeDirectory path := changeTree fun tree => tree.makeDirectory path
  kindOf path s := (s.tree.kind? path, s)
  post request s :=
    let answer := match s.reply with
      | some reply => .ok reply
      | none => .error "no route"
    (answer, { s with sent := s.sent ++ [request] })
  log record s := ((), { s with log := s.log ++ [record] })
  print text s := ((), { s with printed := s.printed ++ text })

end Sandbox

end QueryDepth
