import Residency.Device.RamDisk
import Residency.Main
import Residency.Memory.FrameTable
import Residency.Packer.Run
import Residency.Proofs.Descriptor.Codec
import Residency.Proofs.FileDisk
import Residency.Proofs.Cache.Durability
import Residency.Proofs.Cache.SecondChance
import Residency.Proofs.Cache.Traffic
import Residency.Proofs.Cache.Departure
import Residency.Proofs.Cache.Versions
import Residency.Proofs.Cache.FailedReads
import Residency.Proofs.Memory.PageAllocator
import Residency.Proofs.Memory.PageTable
import Residency.Proofs.Packer.Extraction
import Residency.Proofs.Packer.Packing
import Residency.Proofs.Memory.FrameTable
import Residency.Proofs.Memory.Safety
import Residency.Proofs.Memory.Inverse
import Residency.Proofs.Memory.Failures
import Residency.Proofs.Memory.PageCalls
import Residency.Proofs.Memory.PageContents
import Residency.Proofs.Memory.PageMap
import Residency.Proofs.Memory.EntryAddresses
import Residency.Proofs.Memory.Releasing
import Residency.Proofs.Memory.GivingBack
import Residency.Proofs.Bitmap.FirstFit
import Residency.Proofs.Bitmap.Numbers
import Residency.Proofs.Volume.Calls
import Residency.Proofs.Volume.LifeCycle
import Residency.Proofs.Volume.SharedInode
import Residency.Proofs.Volume.Ownership
import Residency.Proofs.Volume.Persistence
import Residency.Proofs.Volume.Interruptions
import Residency.Proofs.Volume.Creation
import Residency.Proofs.Volume.Acceptance
