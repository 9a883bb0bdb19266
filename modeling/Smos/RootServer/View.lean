/-
Smos.RootServer.View — views of memory objects through windows.

`handle_view` tests the alignment of its two offsets with
`& PAGE_SIZE_4K`, which looks at bit 12 only. It records neither the size
it accepted nor the rights of the object, and links the view to its window
and object before it asks for a handle, so an `OutOfHandles` error leaves
the links behind.
-/
import Smos.RootServer.Window

namespace Smos.RootServer

open Smos.Base

structure ViewArgs where
  window : HandleArg
  object : HandleArg
  windowOffset : Nat
  objOffset : Nat
  size : Nat
  rights : CapRights

/-- The test `offset & PAGE_SIZE_4K != 0`. -/
def pageBitSet (offset : Nat) : Bool := offset.testBit pageBits4K

def handleView (p : Nat) (args : ViewArgs) : Handler SMOSReply := do
  let windowRef ← genericGetHandle p args.window 0
  match ← windowRef |> Prog.unwrap .unwrapNone with
  | .window w =>
    let objectRef ← genericGetHandle p args.object 1
    match ← objectRef |> Prog.unwrap .unwrapNone with
    | .object o =>
      if args.size = 0 then
        Prog.fail .invalidArguments
      else if pageBitSet args.windowOffset then
        Prog.fail (.alignmentError 2)
      else if pageBitSet args.objOffset then
        Prog.fail (.alignmentError 3)
      else
        let objEnd ← addU args.objOffset args.size
        let object ← getObject o
        if objEnd > object.size then
          Prog.fail .invalidArguments
        else
          let winEnd ← addU args.windowOffset args.size
          let window ← getWindow w
          if winEnd > window.size then
            Prog.fail .invalidArguments
          else if window.boundView.isSome then
            Prog.fail .invalidArguments
          else
            let v ← newView (View.new w (some o) none args.rights args.windowOffset args.objOffset)
            modifyWindow w fun window => { window with boundView := some v }
            modifyObject o fun object =>
              { object with associatedViews := object.associatedViews ++ [v] }
            let idx ← allocateHandle p
            setHandle p idx (some (.view v))
            modifyProc p fun u => { u with views := u.views ++ [v] }
            pure (.view idx)
    | _ => genericInvalidHandleError args.object 1
  | _ => genericInvalidHandleError args.window 0

def handleUnviewInternal {ε : Type} (v : ViewRef) : SProg ε Unit := do
  cleanupCapTable v true
  let view ← getView v
  modifyWindow view.boundWindow fun window => { window with boundView := none }
  let view ← getView v
  Prog.assert .boundObject view.boundObject.isSome
  dissociateView v

def handleUnview (p : Nat) (hndl : Nat) : Handler SMOSReply := do
  let viewRef ← (getHandle p hndl).catchErr fun _ => Prog.fail (.invalidHandle 0)
  match ← viewRef |> Prog.unwrap .unwrapNone with
  | .view v =>
    handleUnviewInternal v
    (cleanupHandle p hndl).expect .unwrapNone
    pure .unview
  | _ => Prog.fail (.invalidHandle 0)

end Smos.RootServer
