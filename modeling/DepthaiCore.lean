import DepthaiCore.Utility.LockingQueueHistory
import DepthaiCore.Utility.LockingQueueWakeups
import DepthaiCore.Pipeline.WaitAnySafety
import DepthaiCore.Pipeline.GetAny
import DepthaiCore.Node.SyncGroups
import DepthaiCore.Node.XLinkPacketized
import DepthaiCore.Pipeline.RemoveNode
import DepthaiCore.Pipeline.BuildStreamNames
import DepthaiCore.Pipeline.SchemaClosed
import DepthaiCore.Node.ReplayLooping
import DepthaiCore.Node.StateMergeEpochs
import DepthaiCore.Pipeline.AssetStorage
import DepthaiCore.Pipeline.LoadResource
import DepthaiCore.Device.SetCameraExtrinsics
import DepthaiCore.Utility.AnnexB
import DepthaiCore.Utility.TrackerBookkeeping
import DepthaiCore.Utility.TrackletIdentity
import DepthaiCore.Device.ExtrinsicFrames
import DepthaiCore.OpenVINO.SuperBlob
import DepthaiCore.Node.SyncPointers
import DepthaiCore.Pipeline.SegmentationPaths
import DepthaiCore.Utility.EventsManagerLocks
import DepthaiCore.Utility.EventsManagerWaiting
import DepthaiCore.Pipeline.AssetManagerMap
import DepthaiCore.Utility.MatrixInverse
import DepthaiCore.Node.TimingStatistics
import DepthaiCore.Node.EventIntervals
import DepthaiCore.Node.TemporalPersistence
import DepthaiCore.Node.ImageFilters
import DepthaiCore.Pipeline.InstanceMasks
import DepthaiCore.Utility.WindowedAverage
import DepthaiCore.Utility.PrebootHeader
import DepthaiCore.Pipeline.EntryPoints
import DepthaiCore.Node.Gate
import DepthaiCore.OpenVINO.Blob
import DepthaiCore.Node.RGBDRun
import DepthaiCore.Node.PointCloudSparse
import DepthaiCore.Utility.GiouBatch
import DepthaiCore.Pipeline.KeypointDecode
import DepthaiCore.Datatype.MaskCentroid
import DepthaiCore.Datatype.ClassMask
import DepthaiCore.Node.ShiftDepthImg
import DepthaiCore.Utility.SpatialData
import DepthaiCore.Common.ExtrinsicsUnits
import DepthaiCore.Utility.Colormap
import DepthaiCore.Node.Rectification
import DepthaiCore.Datatype.DetectionsBack
import DepthaiCore.Utility.H26xCodes
import DepthaiCore.Datatype.TransformData
import DepthaiCore.Utility.RotationVectors
import DepthaiCore.Node.ImageManip
import DepthaiCore.Utility.EventsManagerBatch
import DepthaiCore.Utility.EventsManagerEvents
