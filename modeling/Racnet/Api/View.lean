import Racnet.Store.EntryStore

namespace Racnet.Api
open Lib Store Wire

structure SyncWindow where
  sinceMs : UInt64
  untilMs : UInt64
  deriving DecidableEq

def SyncWindow.into (window : SyncWindow) : SortKeyWindow := ⟨window.sinceMs, window.untilMs⟩

structure EntryView where
  id : List UInt8
  author : List UInt8
  sortKeyMs : UInt64
  kind : UInt64
  payload : List UInt8
  deriving DecidableEq

variable [Sha256]

def entryView (entry : Entry) : EntryView where
  id := entry.id.bytes
  author := entry.author.bytes
  sortKeyMs := entry.sortKey
  kind := entry.kind
  payload := entry.payload.toList

/-- The entries in a window, in order. -/
def entriesInWindow (store : EntryStore) (window : SyncWindow) : Option (List EntryView) := do
  let items ← store.snapshot window.into
  return (items.filterMap fun item => store.get item.id).map entryView

end Racnet.Api
