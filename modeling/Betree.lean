import Betree.Spec.Allocator
import Betree.Spec.Handler
import Betree.Spec.Dataset
import Betree.Spec.Tree
import Betree.Spec.Flush
import Betree.Spec.Insert
import Betree.Proof.Runs
import Betree.Proof.Safety
import Betree.Proof.Canonical
import Betree.Proof.Ranges
import Betree.Proof.Accounting
import Betree.Proof.Bitmap
import Betree.Proof.Registry
import Betree.Proof.RangeDelete
import Betree.Proof.Walks
import Betree.Proof.Merges
import Betree.Proof.Allocation
import Betree.Proof.Rebalance
